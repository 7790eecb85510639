import StyleCalc.Proofs.Outcome
import StyleCalc.Proofs.Reach

set_option autoImplicit false

namespace StyleCalc

namespace Scope

def under (scope : Scope) (axis : Option Axis) : Scope :=
  match axis with
  | none => scope
  | some a => { scope with axes := a :: scope.axes }

def deeper (scope : Scope) : Scope :=
  { scope with depth := scope.depth + 1 }

@[simp]
theorem under_axis (scope : Scope) (axis : Option Axis) : (scope.under axis).axis = axis.or scope.axis := by
  cases axis <;> rfl

@[simp]
theorem under_depth (scope : Scope) (axis : Option Axis) : (scope.under axis).depth = scope.depth := by
  cases axis <;> rfl

end Scope

namespace Node

variable {α : Type}

-- In the order in which they are resolved. At the greatest depth a variable needs nothing: it is
-- not looked up there.
def needs (ctx : Context α) : Node α → Scope → List (Node α × Scope)
  | .concat ns, scope => ns.map fun n => (n, scope)
  | .call _ args axes, scope => args.mapIdx fun i n => (n, scope.under (axes.getD [])[i]?)
  | .var name fallback, scope =>
      if maxDepth ≤ scope.depth then []
      else (valueOf ctx name fallback).toList.map fun value => (value, scope.deeper)
  | .calculation inner, scope => [(inner, scope)]
  | .sum left _ right, scope => [(left, scope), (right, scope)]
  | .product left _ right, scope => [(left, scope), (right, scope)]
  | .num inner, scope => [(inner, scope)]
  | _, _ => []

theorem needs_var_iff (ctx : Context α) (name : String) (fallback : Option (Node α)) (scope : Scope)
    (need : Node α × Scope) :
    need ∈ needs ctx (var name fallback) scope ↔
      scope.depth < maxDepth ∧ ∃ value, valueOf ctx name fallback = some value ∧ need = (value, scope.deeper) := by
  by_cases tooDeep : maxDepth ≤ scope.depth
  · simp [needs, tooDeep, Nat.not_lt_of_le tooDeep]
  · simp [needs, tooDeep, Nat.lt_of_not_le tooDeep, eq_comm]

inductive Enters (ctx : Context α) : Node α → Scope → Node α → Scope → Prop where
  | part (node part : Node α) (scope within : Scope) (member : part ∈ node.parts)
      (depth : within.depth = scope.depth) : Enters ctx node scope part within
  | lookup (name : String) (fallback : Option (Node α)) (value : Node α) (scope : Scope)
      (room : scope.depth < maxDepth) (given : valueOf ctx name fallback = some value) :
      Enters ctx (.var name fallback) scope value scope.deeper

theorem needs_cases (ctx : Context α) (node inner : Node α) (scope within : Scope)
    (needed : (inner, within) ∈ needs ctx node scope) :
    (inner ∈ node.parts ∧ within = scope) ∨
      (∃ name args axes, ∃ i : Nat, node = .call name args axes ∧ args[i]? = some inner ∧
        within = scope.under (axes.getD [])[i]?) ∨
      ∃ name fallback, node = .var name fallback ∧ scope.depth < maxDepth ∧
        valueOf ctx name fallback = some inner ∧ within = scope.deeper := by
  cases node with
  | concat ns =>
      obtain ⟨n, member, same⟩ := List.mem_map.mp needed
      cases same
      exact .inl ⟨member, rfl⟩
  | call name args axes =>
      obtain ⟨i, bound, same⟩ := List.mem_mapIdx.mp needed
      cases same
      exact .inr (.inl ⟨name, args, axes, i, rfl, List.getElem?_eq_getElem bound, rfl⟩)
  | var name fallback =>
      obtain ⟨room, value, given, same⟩ := (needs_var_iff ctx name fallback scope _).mp needed
      cases same
      exact .inr (.inr ⟨name, fallback, rfl, room, given, rfl⟩)
  | calculation operand => exact .inl (by simpa [needs, parts] using needed)
  | num operand => exact .inl (by simpa [needs, parts] using needed)
  | sum left op right => exact .inl (by simpa [needs, parts, or_and_right] using needed)
  | product left op right => exact .inl (by simpa [needs, parts, or_and_right] using needed)
  | raw css => simp [needs] at needed
  | url address => simp [needs] at needed
  | numeric n => simp [needs] at needed
  | index => simp [needs] at needed

theorem needs_enters (ctx : Context α) (node inner : Node α) (scope within : Scope)
    (needed : (inner, within) ∈ needs ctx node scope) : Enters ctx node scope inner within := by
  rcases needs_cases ctx node inner scope within needed with
    ⟨member, rfl⟩ | ⟨name, args, axes, i, rfl, place, rfl⟩ | ⟨name, fallback, rfl, room, given, rfl⟩
  · exact .part _ _ _ _ member rfl
  · exact .part _ _ _ _ (List.mem_of_getElem? place) (Scope.under_depth _ _)
  · exact .lookup name fallback inner scope room given

theorem needs_axis (ctx : Context α) (node inner : Node α) (scope within : Scope)
    (needed : (inner, within) ∈ needs ctx node scope) :
    within.axis = scope.axis ∨
      ∃ name args axes axis, node = .call name args axes ∧ axis ∈ axes.getD [] ∧ within.axis = some axis := by
  rcases needs_cases ctx node inner scope within needed with
    ⟨_, rfl⟩ | ⟨name, args, axes, i, rfl, _, rfl⟩ | ⟨_, _, _, _, _, rfl⟩
  · exact .inl rfl
  · rw [Scope.under_axis]
    cases tag : (axes.getD [])[i]? with
    | none => exact .inl rfl
    | some axis => exact .inr ⟨name, args, axes, axis, rfl, List.mem_of_getElem? tag, rfl⟩
  · exact .inl rfl

theorem enters_reaches (ctx : Context α) (node inner : Node α) (scope within : Scope)
    (enters : Enters ctx node scope inner within) : Reaches ctx node inner := by
  cases enters with
  | part _ _ _ _ member _ => exact .part node inner .root member
  | lookup name fallback _ _ _ given =>
      unfold valueOf at given
      split at given
      · rename_i value bound
        exact .value name fallback inner .root (bound.trans given)
      · exact .part _ inner .root (by simp [parts, given])

-- The number of references that may still be nested comes first: a variable's value may be any
-- expression at all.
def Smaller (a b : Node α × Scope) : Prop :=
  Prod.Lex (· < ·) (· < ·) (maxDepth - a.2.depth, sizeOf a.1) (maxDepth - b.2.depth, sizeOf b.1)

theorem needs_smaller (ctx : Context α) (node inner : Node α) (scope within : Scope)
    (needed : (inner, within) ∈ needs ctx node scope) : Smaller (inner, within) (node, scope) := by
  cases needs_enters ctx node inner scope within needed with
  | part _ _ _ _ member depth =>
      simp only [Smaller, depth]
      exact Prod.Lex.right _ (part_smaller node inner member)
  | lookup name fallback _ _ room given =>
      refine Prod.Lex.left _ _ ?_
      simp only [Scope.deeper]
      omega

theorem needs_induction (ctx : Context α) {motive : Node α → Scope → Prop}
    (step : ∀ node scope, (∀ inner within, (inner, within) ∈ needs ctx node scope → motive inner within) →
      motive node scope)
    (node : Node α) (scope : Scope) : motive node scope :=
  step node scope fun inner within _ => needs_induction ctx step inner within
termination_by (maxDepth - scope.depth, sizeOf node)
decreasing_by exact needs_smaller ctx node inner scope within (by assumption)

variable [Scalar α]

def answer (ctx : Context α) (need : Node α × Scope) : Except (ExprError α) (Option (Node α)) :=
  (need.1.resolveIn ctx need.2).1

theorem answer_outcome (ctx : Context α) (node : Node α) (scope : Scope) :
    answer ctx (node, scope) = node.outcome ctx scope.axis scope.depth := by
  rw [answer, resolve_in_outcome]

theorem answer_concat (ctx : Context α) (ns : List (Node α)) (scope : Scope) :
    answer ctx (concat ns, scope) =
      (collect ((needs ctx (concat ns) scope).map (answer ctx))).map (·.map .concat) := by
  have items : (needs ctx (concat ns) scope).map (answer ctx) = ns.map (outcome ctx scope.axis scope.depth) := by
    rw [needs, List.map_map]
    exact List.map_congr_left fun n _ => answer_outcome ctx n scope
  rw [answer_outcome, outcome_concat, items]

theorem answer_call (ctx : Context α) (name : String) (args : List (Node α)) (axes : Option (List Axis))
    (scope : Scope) :
    answer ctx (call name args axes, scope) =
      (collect ((needs ctx (call name args axes) scope).map (answer ctx))).map
        (·.map (.call name · axes)) := by
  have arguments : (needs ctx (call name args axes) scope).map (answer ctx) =
      args.mapIdx fun i n => n.outcome ctx ((axes.getD [])[i]?.or scope.axis) scope.depth := by
    apply Eq.symm
    rw [List.mapIdx_eq_iff]
    intro i
    rw [needs, List.getElem?_map, List.getElem?_mapIdx, Option.map_map]
    congr 1
    funext n
    rw [Function.comp, answer_outcome, Scope.under_axis, Scope.under_depth]
  rw [answer_outcome, outcome_call, arguments]

theorem answer_too_deep (ctx : Context α) (name : String) (fallback : Option (Node α)) (scope : Scope)
    (atLimit : maxDepth ≤ scope.depth) :
    answer ctx (var name fallback, scope) = .error (.maxDepthExceeded name) := by
  rw [answer_outcome, outcome_var, if_pos atLimit]

theorem answer_lookup (ctx : Context α) (name : String) (fallback : Option (Node α)) (value : Node α)
    (scope : Scope) (room : scope.depth < maxDepth) (given : valueOf ctx name fallback = some value) :
    answer ctx (var name fallback, scope) = answer ctx (value, scope.deeper) := by
  rw [answer_outcome, answer_outcome, outcome_var, if_neg (Nat.not_le_of_lt room), given]
  rfl

theorem answer_calculation (ctx : Context α) (inner : Node α) (scope : Scope) :
    answer ctx (calculation inner, scope) = answer ctx (inner, scope) := by
  rw [answer_outcome, answer_outcome, outcome_calculation]

theorem answer_sum (ctx : Context α) (left right : Node α) (op : SumOp) (scope : Scope) :
    answer ctx (sum left op right, scope) =
      binary op.symbol (fun m n => m.sum ctx scope.axis op n) (answer ctx (left, scope))
        (answer ctx (right, scope)) := by
  rw [answer_outcome, answer_outcome, answer_outcome, outcome_sum]

theorem answer_product (ctx : Context α) (left right : Node α) (op : ProductOp) (scope : Scope) :
    answer ctx (product left op right, scope) =
      binary op.symbol (fun m n => m.product op n) (answer ctx (left, scope))
        (answer ctx (right, scope)) := by
  rw [answer_outcome, answer_outcome, answer_outcome, outcome_product]

theorem answer_num (ctx : Context α) (inner : Node α) (scope : Scope) :
    answer ctx (num inner, scope) = (answer ctx (inner, scope) >>= plain ctx) := by
  rw [answer_outcome, answer_outcome, outcome_num]

end Node

end StyleCalc
