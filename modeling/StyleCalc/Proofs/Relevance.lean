import StyleCalc.Double
import StyleCalc.Environment
import StyleCalc.Proofs.Assembly
import StyleCalc.Url.Standard

set_option autoImplicit false

namespace StyleCalc

variable {α : Type}

namespace Node

theorem needs_lookup (ctx : Context α) (lookup : String → Option (Node α)) (node : Node α) (scope : Scope)
    (same : ∀ name fallback, node = .var name fallback → lookup name = ctx.lookup name) :
    needs { ctx with lookup } node scope = needs ctx node scope := by
  cases node with
  | var name fallback => simp only [needs, valueOf, same name fallback rfl]
  | _ => rfl

theorem assemble_lookup [Scalar α] (ctx : Context α) (lookup : String → Option (Node α)) (node : Node α)
    (scope : Scope) : assemble { ctx with lookup } node scope = assemble ctx node scope := by
  cases node <;> rfl

end Node

section

variable [UrlReader]

/-- A name as it is registered that resolution may come to look up. -/
inductive Relevant (env : Environment α) (node : Node α) : String → Prop where
  | occurs (name : String) (fallback : Option (Node α)) (occurs : node.Occurs (.var name fallback)) :
      Relevant env node (variableName name)
  | bound (name inner : String) (value : Node α) (fallback : Option (Node α))
      (previous : Relevant env node name) (bound : env.variables[name]? = some value)
      (occurs : value.Occurs (.var inner fallback)) : Relevant env node (variableName inner)

def AllRelevant (env : Environment α) (root node : Node α) : Prop :=
  ∀ name fallback, node.Occurs (.var name fallback) → Relevant env root (variableName name)

theorem all_relevant_enters (env : Environment α) (root node inner : Node α) (scope within : Scope)
    (relevant : AllRelevant env root node) (enters : Node.Enters env.context node scope inner within) :
    AllRelevant env root inner := by
  intro name fallback occurs
  cases enters with
  | part _ _ _ _ member _ => exact relevant name fallback (Node.occurs_in_part node inner _ member occurs)
  | lookup outer other _ _ _ given =>
      cases bound : env.variables[variableName outer]? with
      | some value =>
          have same : Node.valueOf env.context outer other = some value := by
            simp only [Node.valueOf, Environment.context, Environment.get?, bound]
          obtain rfl : value = inner := Option.some.inj (same.symm.trans given)
          exact .bound _ name value fallback (relevant outer other .root) bound occurs
      | none =>
          have same : Node.valueOf env.context outer other = other := by
            simp only [Node.valueOf, Environment.context, Environment.get?, bound]
          have member : inner ∈ Node.parts (.var outer other) := by
            simp [Node.parts, same.symm.trans given]
          exact relevant name fallback (Node.occurs_in_part _ inner _ member occurs)

theorem context_variables (env : Environment α) (vs : Variables α) :
    { env with «variables» := vs }.context = { env.context with lookup := fun name => vs[variableName name]? } := by
  unfold Environment.context Environment.resolveUrl Environment.get?
  rfl

variable [Scalar α]

theorem relevant_variables_decide (env : Environment α) (vs : Variables α) (root : Node α) (scope : Scope)
    (agree : ∀ name, Relevant env root name → vs[name]? = env.variables[name]?) :
    root.resolveIn { env with «variables» := vs }.context scope = root.resolveIn env.context scope := by
  rw [context_variables]
  apply Node.indistinct_resolve env.context _ fun node _ => AllRelevant env root node
  · constructor
    · intro node scope relevant
      apply Node.needs_lookup
      rintro name fallback rfl
      exact agree (variableName name) (relevant name fallback .root)
    · exact fun node scope _ => Node.assemble_lookup env.context _ node scope
    · intro node scope need relevant needed
      exact all_relevant_enters env root node need.1 scope need.2 relevant
        (Node.needs_enters env.context node need.1 scope need.2 needed)
  · exact fun name fallback occurs => .occurs name fallback occurs

theorem unrelated_variables_never_matter (env : Environment α) (node : Node α) (name : String)
    (unrelated : ¬ Relevant env node (variableName name)) :
    (∀ value, node.resolve (env.define name value).context = node.resolve env.context) ∧
      node.resolve (env.undefine name).context = node.resolve env.context := by
  have other (relevantName : String) (relevant : Relevant env node relevantName) :
      variableName name ≠ relevantName := by
    rintro rfl
    exact unrelated relevant
  have unread (vs : Variables α) (agree : ∀ name, Relevant env node name → vs[name]? = env.variables[name]?) :
      node.resolve { env with «variables» := vs }.context = node.resolve env.context := by
    rw [Node.resolve, Node.resolve, relevant_variables_decide env vs node Scope.start agree]
  refine ⟨?_, ?_⟩
  · intro value
    refine unread (env.define name value).variables fun relevantName relevant => ?_
    simp [other relevantName relevant]
  · refine unread (env.undefine name).variables fun relevantName relevant => ?_
    simp [other relevantName relevant]

end

def knot : Environment Float :=
  (Environment.start.define "--a" (.var "b" (some (.var "--c" none)))).define "--b" (.var " a " none)

def knotReferences : List (Node Float) :=
  [.var "b" (some (.var "--c" none)), .var "--c" none, .var " a " none]

theorem knot_values (name : String) (value : Node Float) (bound : knot.variables[name]? = some value) :
    value ∈ knotReferences := by
  rw [knot] at bound
  grind [knotReferences]

theorem knot_occurrences (root node : Node Float) (known : root ∈ knotReferences)
    (occurs : root.Occurs node) : node ∈ knotReferences := by
  induction occurs with
  | root => exact known
  | part node part _ member ih =>
      simp only [knotReferences, List.mem_cons, List.not_mem_nil, or_false] at ih
      rcases ih with rfl | rfl | rfl <;> simp [Node.parts] at member
      simp [knotReferences, member]

theorem knot_names (root : Node Float) (known : root ∈ knotReferences) (name : String)
    (relevant : Relevant knot root name) : name ∈ ["--a", "--b", "--c"] := by
  have within (start : Node Float) (known : start ∈ knotReferences) (name : String)
      (fallback : Option (Node Float)) (occurs : start.Occurs (.var name fallback)) :
      variableName name ∈ ["--a", "--b", "--c"] := by
    have among := knot_occurrences start _ known occurs
    simp only [knotReferences, List.mem_cons, Node.var.injEq, List.not_mem_nil, or_false] at among
    rcases among with ⟨rfl, _⟩ | ⟨rfl, _⟩ | ⟨rfl, _⟩ <;> decide
  cases relevant with
  | occurs name fallback occurs => exact within root known name fallback occurs
  | bound _ inner value fallback _ bound occurs =>
      exact within value (knot_values _ value bound) inner fallback occurs

theorem knot_without_others :
    ¬ Relevant knot (.var " a " none) (variableName "d") ∧
    (Node.var " a " none : Node Float).resolve (knot.define "d" .index).context =
      (Node.var " a " none).resolve knot.context ∧
    (Node.var " a " none : Node Float).resolve (knot.undefine "d").context =
      (Node.var " a " none).resolve knot.context := by
  have unrelated : ¬ Relevant knot (.var " a " none) (variableName "d") := by
    intro relevant
    have known := knot_names _ (by simp [knotReferences]) _ relevant
    have absent : variableName "d" ∉ ["--a", "--b", "--c"] := by decide
    exact absent known
  obtain ⟨defined, undefined⟩ := unrelated_variables_never_matter knot (.var " a " none) "d" unrelated
  exact ⟨unrelated, defined .index, undefined⟩

end StyleCalc
