import StyleCalc.Proofs.Loading

set_option autoImplicit false

namespace StyleCalc

theorem bare_name_iff (name : String) :
    variableName name = "--" ↔ (∀ x ∈ name.toList, Text.isBlank x = true) ∨ Text.trim name = "--" := by
  rw [← Text.trimChars_eq_nil]
  constructor
  · intro bare
    obtain ⟨rest, chars, source⟩ := variable_name_chars name
    rw [bare] at chars
    obtain rfl : [] = rest := (List.cons.inj (List.cons.inj chars).2).2
    rcases source with dashes | blank
    · exact .inr (by rw [Text.trim, dashes])
    · exact .inl blank
  · rintro (blank | dashes)
    · rw [variableName, blank]
      rfl
    · have trimmed : Text.trimChars name.toList = ['-', '-'] := by
        rw [Text.trim] at dashes
        rw [← String.toList_ofList (l := Text.trimChars name.toList), dashes]
        rfl
      rw [variableName, trimmed]
      rfl

theorem named_key_iff (name : String) :
    (∃ x rest, (variableName name).toList = '-' :: '-' :: x :: rest) ↔ variableName name ≠ "--" := by
  obtain ⟨rest, chars, _⟩ := variable_name_chars name
  cases rest with
  | nil =>
      have bare : variableName name = "--" := String.toList_inj.mp chars
      simp [bare]
  | cons x rest =>
      refine iff_of_true ⟨x, rest, chars⟩ fun bare => ?_
      rw [bare] at chars
      cases chars

section

variable [UrlReader]

namespace Configuration

theorem issue_reported_iff (c : Configuration Float) (r : Requirement) : r.issue ∈ c.issues ↔ r.Broken c := by
  rw [issues_of_requirements, List.mem_map, broken_iff]
  constructor
  · intro ⟨other, member, same⟩
    obtain rfl := Requirement.field_injective other r (congrArg Issue.field same)
    rwa [List.mem_filter, Bool.not_eq_true'] at member
  · intro broken
    exact ⟨r, by rwa [List.mem_filter, Bool.not_eq_true'], rfl⟩

theorem defined_keys {α : Type} [Scalar α] (env : Environment α) (entries : List (String × String)) (key : String) :
    key ∈ (entries.foldl (fun env entry => env.define entry.1 (Node.ofText entry.2)) env).variables ↔
      key ∈ env.variables ∨ ∃ entry ∈ entries, variableName entry.1 = key := by
  induction entries generalizing env with
  | nil => simp
  | cons entry entries ih =>
      rw [List.foldl_cons, ih, Environment.define, Std.TreeMap.mem_insert, List.exists_mem_cons_iff,
        Std.compare_eq_iff_eq, or_comm (a := variableName entry.1 = key), or_assoc]

theorem environment_keys (c : Configuration Float) (env : Environment Float) (loaded : c.environment = .ok env)
    (key : String) : key ∈ env.variables ↔ ∃ name ∈ c.variables.map (·.1), variableName name = key := by
  obtain ⟨_, ran⟩ := (c.environment_ok_iff env).mp loaded
  rw [run_definitions] at ran
  obtain rfl := Except.ok.inj ran
  rw [defined_keys, or_iff_right (by simp [plain])]
  simp

theorem nameless_only_as_dashes (c : Configuration Float) :
    (∀ name ∈ c.variables.map (·.1), variableName name = "--" →
      ((Requirement.named name).issue ∈ c.issues ↔ Text.trim name ≠ "--")) ∧
    ∀ env, c.environment = .ok env →
      ((∀ key ∈ env.variables, ∃ x rest, key.toList = '-' :: '-' :: x :: rest) ↔
        ∀ name ∈ c.variables.map (·.1), Text.trim name ≠ "--") := by
  refine ⟨fun name member bare => ?_, fun env loaded => ?_⟩
  · rw [issue_reported_iff]
    constructor
    · intro ⟨_, blank⟩ dashes
      rw [Text.trim, (Text.trimChars_eq_nil _).mpr blank] at dashes
      exact absurd dashes (by decide)
    · intro noDashes
      exact ⟨member, ((bare_name_iff name).mp bare).resolve_right noDashes⟩
  · have met := ((c.environment_ok_iff env).mp loaded).1
    constructor
    · intro named name member dashes
      have bare := (bare_name_iff name).mpr (.inr dashes)
      have key := named _ ((c.environment_keys env loaded _).mpr ⟨name, member, rfl⟩)
      exact (named_key_iff name).mp key bare
    · intro noDashes key registered
      obtain ⟨name, member, rfl⟩ := (c.environment_keys env loaded key).mp registered
      refine (named_key_iff name).mpr fun bare => ?_
      rcases (bare_name_iff name).mp bare with blank | dashes
      · exact c.issues_nil_iff.mp met (.named name) ⟨member, blank⟩
      · exact noDashes name member dashes

end Configuration

end

namespace Configuration

theorem page_variables_have_names :
    ∃ env, page.environment = .ok env ∧ "--gap" ∈ env.variables ∧
      ∀ key ∈ env.variables, ∃ x rest, key.toList = '-' :: '-' :: x :: rest := by
  obtain ⟨env, loaded⟩ := page.environment_exists_iff.mpr page_has_no_issues
  have noDashes : ∀ name ∈ page.variables.map (·.1), Text.trim name ≠ "--" := by decide +kernel
  exact ⟨env, loaded, (page.environment_keys env loaded "--gap").mpr ⟨"gap", by decide, by decide⟩,
    ((nameless_only_as_dashes page).2 env loaded).mpr noDashes⟩

def bareDashes : Configuration Float :=
  { start with «variables» := [("--", "1px")] }

theorem dashes_name_nothing :
    ¬ ∀ (c : Configuration Float) (env : Environment Float), c.environment = .ok env →
      ∀ key ∈ env.variables, ∃ x rest, key.toList = '-' :: '-' :: x :: rest := by
  intro named
  have met : bareDashes.issues = [] := by decide +kernel
  obtain ⟨env, loaded⟩ := bareDashes.environment_exists_iff.mpr met
  have registered : "--" ∈ env.variables :=
    (bareDashes.environment_keys env loaded "--").mpr ⟨"--", by decide, by decide⟩
  obtain ⟨x, rest, chars⟩ := named bareDashes env loaded "--" registered
  cases chars

end Configuration

end StyleCalc
