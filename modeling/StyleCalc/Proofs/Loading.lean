import Mathlib.Data.List.Nodup
import StyleCalc.Configuration.Loading
import StyleCalc.Proofs.Registry
import StyleCalc.Proofs.Validation

set_option autoImplicit false

namespace StyleCalc

section

variable {α : Type}

namespace Configuration

def Distinct (c : Configuration α) : Prop :=
  (c.variables.map fun entry => variableName entry.1).Nodup

theorem distinct_of_perm (c : Configuration α) (entries : List (String × String))
    (rearranged : entries.Perm c.variables) (distinct : c.Distinct) :
    { c with «variables» := entries }.Distinct :=
  (rearranged.map _).nodup_iff.mpr distinct

end Configuration

variable [UrlReader]

namespace Configuration

variable [Scalar α]

theorem validated_ok_iff (c result : Configuration α) :
    c.validated = .ok result ↔ c.issues = [] ∧ c = result := by
  rw [validated]
  cases c.issues with
  | nil => simp
  | cons first rest => simp

theorem validated_error (c : Configuration α) (broken : c.issues ≠ []) :
    c.validated = .error (.invalid (c.issues.map Issue.text)) := by
  rw [validated]
  cases found : c.issues with
  | nil => exact absurd found broken
  | cons first rest => rfl

theorem read_valid (read : Option (Configuration α)) (failure : ConfigurationError) (c : Configuration α)
    (loaded : read.elim (.error failure) validated = .ok c) : c.issues = [] := by
  cases read with
  | none => cases loaded
  | some given =>
      obtain ⟨met, rfl⟩ := (validated_ok_iff given c).mp loaded
      exact met

theorem of_toml_valid [DocumentReader α] (text : String) (c : Configuration α) (loaded : ofToml text = .ok c) :
    c.issues = [] := by
  refine read_valid ((DocumentReader.toml? text : Option (Document α)).bind (ofDocument? true)) .malformedToml c ?_
  rw [← loaded, ofToml]
  cases (DocumentReader.toml? text : Option (Document α)).bind (ofDocument? true) <;> rfl

theorem of_json_valid [DocumentReader α] (text : String) (c : Configuration α) (loaded : ofJson text = .ok c) :
    c.issues = [] := by
  refine read_valid ((DocumentReader.json? text : Option (Document α)).bind (ofDocument? false)) .malformedJson c ?_
  rw [← loaded, ofJson]
  cases (DocumentReader.json? text : Option (Document α)).bind (ofDocument? false) <;> rfl

theorem of_file_valid [DocumentReader α] (name : String) (contents : Option ByteArray) (c : Configuration α)
    (loaded : ofFile name contents = .ok c) : c.issues = [] := by
  rw [ofFile] at loaded
  cases read : contents.bind String.fromUTF8? with
  | none =>
      rw [read] at loaded
      cases loaded
  | some text =>
      rw [read] at loaded
      by_cases json : isJsonName name
      · exact of_json_valid text c (by simpa only [if_pos json] using loaded)
      · exact of_toml_valid text c (by simpa only [if_neg json] using loaded)

def plain (c : Configuration α) : Environment α where
  viewport := c.viewport
  element := c.element
  fontSize := c.fonts.size
  rootFontSize := c.fonts.root
  index := c.index
  «variables» := ∅
  urls := ⟨c.urls.base.bind fun base => (UrlReader.parse base).toOption, c.urls.allowInsecure⟩

def definition (entry : String × String) : Change α :=
  .define entry.1 (Node.ofText entry.2)

theorem run_definitions (env : Environment α) (entries : List (String × String)) :
    env.run (entries.map definition) =
      .ok (entries.foldl (fun env entry => env.define entry.1 (Node.ofText entry.2)) env) := by
  induction entries generalizing env with
  | nil => rfl
  | cons entry entries ih => exact ih (env.define entry.1 (Node.ofText entry.2))

theorem environment_ok_iff (c : Configuration α) (env : Environment α) :
    c.environment = .ok env ↔
      c.issues = [] ∧ c.plain.run (c.variables.map definition) = .ok env := by
  rw [run_definitions, environment, validated]
  cases c.issues with
  | nil => simp [bind, Except.bind, pure, Except.pure, plain]
  | cons first rest => simp [bind, Except.bind]

theorem environment_refused (c : Configuration α) (broken : c.issues ≠ []) :
    c.environment = .error (.invalid (c.issues.map Issue.text)) := by
  rw [environment, validated_error c broken]
  rfl

theorem environment_exists_iff (c : Configuration α) :
    (∃ env, c.environment = .ok env) ↔ c.issues = [] := by
  constructor
  · intro ⟨env, loaded⟩
    exact ((c.environment_ok_iff env).mp loaded).1
  · intro met
    exact ⟨_, (c.environment_ok_iff _).mpr ⟨met, run_definitions _ _⟩⟩

theorem definition_keys (entries : List (String × String)) :
    (entries.map (definition (α := α))).filterMap Change.key? = entries.map fun entry => variableName entry.1 := by
  rw [List.filterMap_map]
  exact congrFun (List.filterMap_eq_map (f := fun entry : String × String => variableName entry.1)) entries

theorem environment_lookup (c : Configuration α) (distinct : c.Distinct) (env : Environment α)
    (loaded : c.environment = .ok env) (key : String) (value : Node α) :
    env.variables[key]? = some value ↔
      ∃ name text, (name, text) ∈ c.variables ∧ variableName name = key ∧ Node.ofText text = value := by
  obtain ⟨_, ran⟩ := (c.environment_ok_iff env).mp loaded
  have empty : ¬ (c.plain.variables[key]? = some value) := by simp [plain]
  have keys : ((c.variables.map (definition (α := α))).filterMap Change.key?).Nodup := by
    rw [definition_keys]
    exact distinct
  rw [Environment.run_lookup c.plain env _ key value ran, binds_distinct _ key value keys,
    or_iff_left fun before => empty before.2]
  constructor
  · intro ⟨name, member, named⟩
    obtain ⟨entry, given, same⟩ := List.mem_map.mp member
    obtain ⟨rfl, rfl⟩ := Change.define.inj same
    exact ⟨_, _, given, named, rfl⟩
  · intro ⟨name, text, member, named, said⟩
    exact ⟨name, List.mem_map.mpr ⟨_, member, congrArg (Change.define name) said⟩, named⟩

theorem environment_size (c : Configuration α) (distinct : c.Distinct) (env : Environment α)
    (loaded : c.environment = .ok env) : env.variables.size = c.variables.length := by
  have members : env.variables.keys.Perm (c.variables.map fun entry => variableName entry.1) := by
    refine (List.perm_ext_iff_of_nodup Std.TreeMap.nodup_keys distinct).mpr fun key => ?_
    rw [Std.TreeMap.mem_keys, Std.TreeMap.mem_iff_isSome_getElem?, Option.isSome_iff_exists, List.mem_map]
    constructor
    · intro ⟨value, found⟩
      obtain ⟨name, text, member, named, _⟩ := (c.environment_lookup distinct env loaded key value).mp found
      exact ⟨_, member, named⟩
    · intro ⟨entry, member, named⟩
      exact ⟨_, (c.environment_lookup distinct env loaded key _).mpr ⟨_, _, member, named, rfl⟩⟩
  rw [← Std.TreeMap.length_keys, members.length_eq, List.length_map]

end Configuration

namespace Environment

structure Alike (env other : Environment α) : Prop where
  fields : other = { env with «variables» := other.variables }
  entries : other.variables.toList = env.variables.toList
  context : other.context = env.context

theorem alike_of_lookup (env : Environment α) («variables» : Variables α)
    (same : ∀ key : String, «variables»[key]? = env.variables[key]?) :
    Alike env { env with «variables» := «variables» } where
  fields := rfl
  entries := Std.TreeMap.equiv_iff_toList_eq.mp (Std.TreeMap.Equiv.of_forall_constGet?_eq same)
  context := by
    have lookups : ({ env with «variables» := «variables» } : Environment α).get? = env.get? :=
      funext fun name => same (variableName name)
    rw [Environment.context, lookups]
    rfl

end Environment

namespace Configuration

variable [Scalar α]

structure Describes (c : Configuration α) (env : Environment α) : Prop where
  viewport : env.viewport = c.viewport
  element : env.element = c.element
  fontSize : env.fontSize = c.fonts.size
  rootFontSize : env.rootFontSize = c.fonts.root
  index : env.index = c.index
  allowInsecure : env.urls.allowInsecure = c.urls.allowInsecure
  base : ∀ base, c.urls.base = some base → ∃ url, UrlReader.parse base = .ok url ∧ env.urls.base = some url
  baseless : c.urls.base = none → env.urls.base = none
  lookup : ∀ key value, env.variables[key]? = some value ↔
    ∃ name text, (name, text) ∈ c.variables ∧ variableName name = key ∧ Node.ofText text = value
  size : env.variables.size = c.variables.length

theorem environment_frame (c : Configuration α) (env : Environment α) (loaded : c.environment = .ok env) :
    env = { c.plain with «variables» := env.variables } := by
  obtain ⟨_, ran⟩ := (c.environment_ok_iff env).mp loaded
  refine Environment.run_frame c.plain env _ ?_ ran
  intro change member
  obtain ⟨entry, _, rfl⟩ := List.mem_map.mp member
  simp [definition, Change.key?]

theorem base_parses (c : Configuration Float) (met : c.issues = []) (base : String)
    (given : c.urls.base = some base) : ∃ url, UrlReader.parse base = .ok url := by
  by_cases parses : ∃ url, UrlReader.parse base = .ok url
  · exact parses
  · exact absurd ⟨base, given, parses⟩ (c.issues_nil_iff.mp met .baseUrl)

theorem environment_describes (c : Configuration Float) (distinct : c.Distinct) (env : Environment Float)
    (loaded : c.environment = .ok env) : c.Describes env where
  viewport := congrArg Environment.viewport (c.environment_frame env loaded)
  element := congrArg Environment.element (c.environment_frame env loaded)
  fontSize := congrArg Environment.fontSize (c.environment_frame env loaded)
  rootFontSize := congrArg Environment.rootFontSize (c.environment_frame env loaded)
  index := congrArg Environment.index (c.environment_frame env loaded)
  allowInsecure := congrArg (·.urls.allowInsecure) (c.environment_frame env loaded)
  base base given := by
    have met := ((c.environment_ok_iff env).mp loaded).1
    obtain ⟨url, parsed⟩ := c.base_parses met base given
    refine ⟨url, parsed, ?_⟩
    rw [c.environment_frame env loaded, plain, given]
    exact congrArg Except.toOption parsed
  baseless missing := by
    rw [c.environment_frame env loaded, plain, missing]
    rfl
  lookup := c.environment_lookup distinct env loaded
  size := c.environment_size distinct env loaded

theorem environment_of_perm (c : Configuration Float) (distinct : c.Distinct)
    (entries : List (String × String)) (rearranged : entries.Perm c.variables) (env : Environment Float)
    (loaded : c.environment = .ok env) :
    ∃ other, { c with «variables» := entries }.environment = .ok other ∧ env.Alike other := by
  have met : { c with «variables» := entries }.issues = [] :=
    (c.issues_of_perm entries rearranged).trans ((c.environment_ok_iff env).mp loaded).1
  obtain ⟨other, again⟩ := (environment_exists_iff _).mpr met
  have frame : other = { env with «variables» := other.variables } := by
    rw [c.environment_frame env loaded]
    exact environment_frame { c with «variables» := entries } other again
  have lookups : ∀ key : String, other.variables[key]? = env.variables[key]? := by
    intro key
    refine Option.ext fun value => ?_
    rw [environment_lookup _ (c.distinct_of_perm entries rearranged distinct) other again,
      c.environment_lookup distinct env loaded]
    simp only [rearranged.mem_iff]
  exact ⟨other, again, frame ▸ Environment.alike_of_lookup env other.variables lookups⟩

theorem refused_of_perm (c : Configuration Float) (entries : List (String × String))
    (rearranged : entries.Perm c.variables) (e : ConfigurationError) (refused : c.environment = .error e) :
    { c with «variables» := entries }.environment = .error e := by
  have same := c.issues_of_perm entries rearranged
  by_cases met : c.issues = []
  · obtain ⟨env, loaded⟩ := c.environment_exists_iff.mpr met
    rw [loaded] at refused
    cases refused
  · rw [environment_refused _ (same ▸ met), same, ← c.environment_refused met]
    exact refused

theorem loading_is_validated [DocumentReader Float] (c : Configuration Float) (distinct : c.Distinct) :
    (∃ broken : List Requirement, c.issues = broken.map Requirement.issue ∧
      (∀ r, r ∈ broken ↔ r.Broken c) ∧ broken.Pairwise Requirement.Precedes ∧ c.issues.Nodup) ∧
    ((∃ env, c.environment = .ok env) ↔ c.issues = []) ∧
    (c.issues ≠ [] → c.environment = .error (.invalid (c.issues.map Issue.text))) ∧
    (∀ text loaded, ofToml text = .ok loaded ∨ ofJson text = .ok loaded →
      (loaded : Configuration Float).issues = []) ∧
    (∀ env, c.environment = .ok env → c.Describes env) ∧
    ∀ entries : List (String × String), entries.Perm c.variables →
      { c with «variables» := entries }.issues = c.issues ∧
      (∀ e, c.environment = .error e → { c with «variables» := entries }.environment = .error e) ∧
      ∀ env, c.environment = .ok env →
        ∃ other, { c with «variables» := entries }.environment = .ok other ∧ env.Alike other := by
  have names : (c.variables.map (·.1)).Nodup := by
    refine List.Nodup.of_map variableName ?_
    rw [List.map_map]
    exact distinct
  refine ⟨c.issues_follow_requirements names, c.environment_exists_iff, c.environment_refused, ?_,
    c.environment_describes distinct, fun entries rearranged => ⟨c.issues_of_perm entries rearranged,
      c.refused_of_perm entries rearranged, c.environment_of_perm distinct entries rearranged⟩⟩
  · intro text loaded given
    rcases given with given | given
    · exact of_toml_valid text loaded given
    · exact of_json_valid text loaded given

end Configuration

end

namespace Configuration

def page : Configuration Float :=
  { start with
    urls := ⟨some "https://a.com/d/", true⟩
    «variables» := [("gap", "8px"), ("--easing", "ease-in-out")] }

theorem page_has_no_issues : page.issues = [] := by
  have size : (16 : Float).isFinite ∧ 0 < (16 : Float) := by decide +kernel
  have side : (0 : Float).isFinite ∧ (0 : Float) ≤ 0 := by decide +kernel
  have base : ∃ url, UrlReader.parse "https://a.com/d/" = .ok url := (absolute_iff _).mp (by decide +kernel)
  refine page.issues_nil_iff.mpr fun r broken => ?_
  cases r with
  | fontSize => exact broken size
  | rootFontSize => exact broken size
  | baseUrl =>
      obtain ⟨address, given, refused⟩ := broken
      obtain rfl := Option.some.inj given
      exact refused base
  | named name =>
      obtain ⟨member, blank⟩ := broken
      have written : name = "gap" ∨ name = "--easing" := by simpa [page] using member
      rcases written with rfl | rfl
      · exact absurd (blank 'g' (by decide)) (by decide)
      · exact absurd (blank '-' (by decide)) (by decide)
  | _ => exact broken side

theorem page_loads_in_any_order :
    page.Distinct ∧ ∃ env other, page.environment = .ok env ∧
      env.variables["--gap"]? = some (Node.ofText "8px") ∧ env.variables.size = 2 ∧
      { page with «variables» := page.variables.reverse }.environment = .ok other ∧ env.Alike other := by
  have distinct : page.Distinct := by
    rw [Distinct]
    decide
  obtain ⟨_, ⟨_, exists_of_met⟩, _, _, describes, orders⟩ := loading_is_validated page distinct
  obtain ⟨env, loaded⟩ := exists_of_met page_has_no_issues
  obtain ⟨other, again, alike⟩ := (orders _ (List.reverse_perm _)).2.2 env loaded
  exact ⟨distinct, env, other, loaded,
    ((describes env loaded).lookup _ _).mpr ⟨"gap", "8px", by decide, rfl, rfl⟩,
    (describes env loaded).size, again, alike⟩

end Configuration

end StyleCalc
