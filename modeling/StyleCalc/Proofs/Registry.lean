import StyleCalc.Double
import StyleCalc.Environment
import StyleCalc.Url.Standard

set_option autoImplicit false

namespace StyleCalc

structure Registered (key : String) : Prop where
  dashes : ['-', '-'] <+: key.toList
  first : ∀ c, key.toList.head? = some c → Text.isBlank c = false
  last : ∀ c, key.toList.getLast? = some c → Text.isBlank c = false
  settled : variableName key = key

theorem variable_name_registered (name : String) : Registered (variableName name) := by
  obtain ⟨rest, chars, _⟩ := variable_name_chars name
  have trimmed := variable_name_trimmed name
  refine ⟨⟨rest, chars.symm⟩, ?_, ?_, variable_name_again name⟩
  · intro c first
    exact Text.head_trimChars _ c (trimmed.symm ▸ first)
  · intro c last
    exact Text.last_trimChars _ c (trimmed.symm ▸ last)

section

variable {α : Type} [UrlReader]

inductive Change (α : Type) where
  | define (name : String) (value : Node α)
  | remove (name : String)
  | viewport (size : Size α)
  | element (size : Size α)
  | fontSize (size : α)
  | rootFontSize (size : α)
  | index (n : Nat)
  | urlPolicy (urls : UrlPolicy)
  | baseUrl (address : String)

namespace Change

def key? : Change α → Option String
  | define name _ => some (variableName name)
  | remove name => some (variableName name)
  | _ => none

def value? : Change α → Option (Node α)
  | define _ value => some value
  | _ => none

def address? : Change α → Option String
  | baseUrl address => some address
  | _ => none

theorem defines_iff (change : Change α) (key : String) (value : Node α) :
    change.key? = some key ∧ change.value? = some value ↔
      ∃ name, change = .define name value ∧ variableName name = key := by
  constructor
  · intro defined
    cases change with
    | define name other =>
        obtain rfl := Option.some.inj defined.2
        exact ⟨name, rfl, Option.some.inj defined.1⟩
    | _ => cases defined.2
  · intro ⟨name, same, named⟩
    subst same named
    exact ⟨rfl, rfl⟩

end Change

namespace Environment

def after (env : Environment α) : Change α → Except (ExprError α) (Environment α)
  | .define name value => .ok (env.define name value)
  | .remove name => .ok (env.remove name).2
  | .viewport size => .ok (env.withViewport size)
  | .element size => .ok (env.withElement size)
  | .fontSize size => .ok (env.withFontSize size)
  | .rootFontSize size => .ok (env.withRootFontSize size)
  | .index n => .ok (env.withIndex n)
  | .urlPolicy urls => .ok (env.withUrlPolicy urls)
  | .baseUrl address => env.withBaseUrl address

def run (env : Environment α) : List (Change α) → Except (ExprError α) (Environment α)
  | [] => .ok env
  | change :: changes => do
      let next ← env.after change
      next.run changes

theorem with_base_ok (env next : Environment α) (address : String) :
    env.withBaseUrl address = .ok next ↔
      ∃ url, UrlReader.parse address = .ok url ∧
        next = { env with urls := { env.urls with base := some url } } := by
  rw [withBaseUrl]
  cases parsed : UrlReader.parse address with
  | error refusal => simp
  | ok url => simp [eq_comm]

theorem after_other (env next : Environment α) (change : Change α) (other : change.key? = none)
    (changed : env.after change = .ok next) : next.variables = env.variables := by
  cases change with
  | define name value => cases other
  | remove name => cases other
  | baseUrl address =>
      obtain ⟨url, _, rfl⟩ := (with_base_ok env next address).mp changed
      rfl
  | _ => cases changed; rfl

theorem after_variable (env next : Environment α) (change : Change α) (name : String)
    (named : change.key? = some name) (changed : env.after change = .ok next) :
    next = { env with «variables» := next.variables } := by
  cases change with
  | define name value => cases changed; rfl
  | remove name => cases changed; rfl
  | _ => cases named

theorem after_lookup (env next : Environment α) (change : Change α) (key : String)
    (changed : env.after change = .ok next) :
    next.variables[key]? =
      if change.key? = some key then change.value? else env.variables[key]? := by
  cases change with
  | define name value =>
      cases changed
      simp [Change.key?, Change.value?]
  | remove name =>
      cases changed
      simp [remove, Change.key?, Change.value?]
  | _ => rw [after_other env next _ rfl changed, if_neg nofun]

theorem after_succeeds (env : Environment α) (change : Change α) :
    (∃ next, env.after change = .ok next) ↔
      ∀ address, change.address? = some address → ∃ url, UrlReader.parse address = .ok url := by
  cases change with
  | baseUrl address =>
      constructor
      · intro ⟨next, changed⟩ other same
        obtain rfl := Option.some.inj same
        obtain ⟨url, parsed, _⟩ := (with_base_ok env next address).mp changed
        exact ⟨url, parsed⟩
      · intro parses
        obtain ⟨url, parsed⟩ := parses address rfl
        exact ⟨_, (with_base_ok env _ address).mpr ⟨url, parsed, rfl⟩⟩
  | _ => simp [after, Change.address?]

theorem run_cons (env last : Environment α) (change : Change α) (changes : List (Change α)) :
    env.run (change :: changes) = .ok last ↔
      ∃ next, env.after change = .ok next ∧ next.run changes = .ok last := by
  rw [run]
  cases changed : env.after change with
  | error e => simp [bind, Except.bind]
  | ok next => simp [bind, Except.bind]

theorem run_succeeds (env : Environment α) (changes : List (Change α)) :
    (∃ last, env.run changes = .ok last) ↔
      ∀ address, .baseUrl address ∈ changes → ∃ url, UrlReader.parse address = .ok url := by
  induction changes generalizing env with
  | nil => simp [run]
  | cons change changes ih =>
      have head := after_succeeds env change
      constructor
      · intro ⟨last, ran⟩ address member
        obtain ⟨next, changed, ran⟩ := (run_cons env last change changes).mp ran
        rcases List.mem_cons.mp member with same | member
        · exact head.mp ⟨next, changed⟩ address (same ▸ rfl)
        · exact (ih next).mp ⟨last, ran⟩ address member
      · intro parses
        have parsed : ∀ address, change.address? = some address →
            ∃ url, UrlReader.parse address = .ok url := by
          intro address same
          cases change with
          | baseUrl other =>
              obtain rfl := Option.some.inj same
              exact parses other List.mem_cons_self
          | _ => cases same
        obtain ⟨next, changed⟩ := head.mpr parsed
        obtain ⟨last, ran⟩ := (ih next).mpr fun address member =>
          parses address (List.mem_cons_of_mem change member)
        exact ⟨last, (run_cons env last change changes).mpr ⟨next, changed, ran⟩⟩

end Environment

def Untouched (changes : List (Change α)) (key : String) : Prop :=
  ∀ change ∈ changes, change.key? ≠ some key

/-- The last change to what a key stands for defines it. -/
def Binds (changes : List (Change α)) (key : String) (value : Node α) : Prop :=
  ∃ earlier name later, changes = earlier ++ .define name value :: later ∧
    variableName name = key ∧ Untouched later key

@[simp]
theorem binds_nil (key : String) (value : Node α) : ¬ Binds [] key value := by
  intro ⟨earlier, name, later, split, _⟩
  simp at split

theorem binds_cons (change : Change α) (changes : List (Change α)) (key : String) (value : Node α) :
    Binds (change :: changes) key value ↔
      Binds changes key value ∨
        Untouched changes key ∧ change.key? = some key ∧ change.value? = some value := by
  rw [Change.defines_iff]
  constructor
  · intro ⟨earlier, name, later, split, named, untouched⟩
    cases earlier with
    | nil =>
        obtain ⟨rfl, rfl⟩ := List.cons.inj split
        exact .inr ⟨untouched, name, rfl, named⟩
    | cons first earlier =>
        obtain ⟨_, split⟩ := List.cons.inj split
        exact .inl ⟨earlier, name, later, split, named, untouched⟩
  · intro bound
    rcases bound with ⟨earlier, name, later, split, named, untouched⟩ | ⟨untouched, name, same, named⟩
    · exact ⟨change :: earlier, name, later, congrArg (change :: ·) split, named, untouched⟩
    · exact ⟨[], name, changes, congrArg (· :: changes) same, named, untouched⟩

theorem binds_distinct (changes : List (Change α)) (key : String) (value : Node α)
    (distinct : (changes.filterMap Change.key?).Nodup) :
    Binds changes key value ↔ ∃ name, .define name value ∈ changes ∧ variableName name = key := by
  constructor
  · intro ⟨earlier, name, later, split, named, _⟩
    exact ⟨name, by simp [split], named⟩
  · intro ⟨name, member, named⟩
    obtain ⟨earlier, later, split⟩ := List.append_of_mem member
    refine ⟨earlier, name, later, split, named, ?_⟩
    intro change member again
    rw [split, List.filterMap_append] at distinct
    have once := (List.nodup_append.mp distinct).2.1
    rw [List.filterMap_cons_some (show Change.key? (.define name value) = some key from congrArg some named),
      List.nodup_cons] at once
    exact once.1 (List.mem_filterMap.mpr ⟨change, member, again⟩)

@[simp]
theorem untouched_cons (change : Change α) (changes : List (Change α)) (key : String) :
    Untouched (change :: changes) key ↔ change.key? ≠ some key ∧ Untouched changes key :=
  List.forall_mem_cons

namespace Environment

-- By induction on the changes: what is there at the end was defined on the way, or was there before.
theorem run_lookup (env last : Environment α) (changes : List (Change α)) (key : String)
    (value : Node α) (ran : env.run changes = .ok last) :
    last.variables[key]? = some value ↔
      Binds changes key value ∨ Untouched changes key ∧ env.variables[key]? = some value := by
  induction changes generalizing env with
  | nil =>
      cases ran
      simp [Untouched]
  | cons change changes ih =>
      obtain ⟨next, changed, ran⟩ := (run_cons env last change changes).mp ran
      rw [ih next ran, after_lookup env next change key changed, binds_cons]
      by_cases named : change.key? = some key <;> simp [named]

theorem start_lookup [Scalar α] (last : Environment α) (changes : List (Change α)) (key : String)
    (value : Node α) (ran : start.run changes = .ok last) :
    last.variables[key]? = some value ↔ Binds changes key value := by
  simp [run_lookup start last changes key value ran]

theorem run_frame (env last : Environment α) (changes : List (Change α))
    (named : ∀ change ∈ changes, change.key? ≠ none) (ran : env.run changes = .ok last) :
    last = { env with «variables» := last.variables } := by
  induction changes generalizing env with
  | nil => cases ran; rfl
  | cons change changes ih =>
      obtain ⟨next, changed, ran⟩ := (run_cons env last change changes).mp ran
      obtain ⟨key, first⟩ := Option.ne_none_iff_exists'.mp (named change List.mem_cons_self)
      have rest := ih next (fun other member => named other (List.mem_cons_of_mem change member)) ran
      rw [after_variable env next change key first changed] at rest
      exact rest

theorem get_binds [Scalar α] (env : Environment α) (changes : List (Change α))
    (ran : start.run changes = .ok env) (name : String) (value : Node α) :
    env.get? name = some value ↔ Binds changes (variableName name) value :=
  start_lookup env changes (variableName name) value ran

theorem defines_binds [Scalar α] (env : Environment α) (changes : List (Change α))
    (ran : start.run changes = .ok env) (name : String) :
    env.defines name = true ↔ ∃ value, Binds changes (variableName name) value := by
  rw [defines, Std.TreeMap.contains_eq_isSome_getElem?, Option.isSome_iff_exists]
  exact exists_congr fun value => start_lookup env changes (variableName name) value ran

theorem keys_binds [Scalar α] (env : Environment α) (changes : List (Change α))
    (ran : start.run changes = .ok env) (key : String) :
    key ∈ env.variables.keys ↔ ∃ value, Binds changes key value := by
  rw [Std.TreeMap.mem_keys, Std.TreeMap.mem_iff_isSome_getElem?, Option.isSome_iff_exists]
  exact exists_congr fun value => start_lookup env changes key value ran

end Environment

theorem binds_registered (changes : List (Change α)) (key : String) (value : Node α)
    (bound : Binds changes key value) : Registered key := by
  obtain ⟨_, name, _, _, named, _⟩ := bound
  exact named ▸ variable_name_registered name

namespace Environment

theorem registry_follows_changes [Scalar α] (changes : List (Change α)) :
    ((∃ env, (start : Environment α).run changes = .ok env) ↔
      ∀ address, .baseUrl address ∈ changes → ∃ url, UrlReader.parse address = .ok url) ∧
    ∀ env, (start : Environment α).run changes = .ok env →
      (∀ name value, env.get? name = some value ↔ Binds changes (variableName name) value) ∧
      (∀ name, env.defines name = true ↔ ∃ value, Binds changes (variableName name) value) ∧
      (∀ name, (env.remove name).1 = env.get? name) ∧
      (∃ names : List String, names.Nodup ∧ (∀ key, key ∈ names ↔ ∃ value, Binds changes key value) ∧
        env.variables.size = names.length) ∧
      (∀ key ∈ env.variables, Registered key) ∧
      ∀ change next, env.after change = .ok next →
        (∀ key, change.key? = some key → next = { env with «variables» := next.variables }) ∧
        (change.key? = none → next.variables = env.variables) := by
  refine ⟨run_succeeds start changes, fun env ran => ⟨get_binds env changes ran,
    defines_binds env changes ran, fun _ => rfl, ⟨env.variables.keys, ?_, ?_, ?_⟩, ?_, ?_⟩⟩
  · exact Std.TreeMap.nodup_keys
  · exact keys_binds env changes ran
  · exact Std.TreeMap.length_keys.symm
  · intro key member
    obtain ⟨value, bound⟩ := (keys_binds env changes ran key).mp (Std.TreeMap.mem_keys.mpr member)
    exact binds_registered changes key value bound
  · intro change next changed
    exact ⟨fun key named => after_variable env next change key named changed,
      fun other => after_other env next change other changed⟩

end Environment

end

namespace Environment

def spellings : List (Change Float) :=
  [.define "gap" (.raw "1px"), .define "---gap" (.raw "2px"), .index 3, .define "\u00a0gap " (.raw "3px"),
    .define " " (.raw "4px"), .remove "--gap", .define "--" (.raw "5px")]

theorem spellings_follow_changes :
    ∃ env, (start : Environment Float).run spellings = .ok env ∧ env.get? "" = some (.raw "5px") ∧
      env.get? "---gap" = some (.raw "2px") ∧ env.defines "gap" = false := by
  refine ⟨_, rfl, ?_⟩
  obtain ⟨gets, defines, _⟩ := (registry_follows_changes spellings).2 _ rfl
  have others : Untouched (spellings.drop 2) (variableName "---gap") := by
    rw [Untouched]
    decide
  have removed : ¬ ∃ value, Binds spellings (variableName "gap") value := by
    have nameless : variableName "--" ≠ variableName "gap" := by decide
    have spelled : variableName "--gap" = variableName "gap" := rfl
    simp [spellings, binds_cons, Change.key?, Change.value?, nameless, spelled]
  exact ⟨(gets "" _).mpr ⟨spellings.take 6, "--", [], rfl, by decide, nofun⟩,
    (gets "---gap" _).mpr ⟨spellings.take 1, "---gap", spellings.drop 2, rfl, rfl, others⟩,
    Bool.eq_false_iff.mpr fun defined => removed ((defines "gap").mp defined)⟩

end Environment

end StyleCalc
