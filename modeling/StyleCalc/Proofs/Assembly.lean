import StyleCalc.Proofs.Descent
/-!
One step of resolution: the result of an expression is assembled from the results of what it needs, by
a rule that looks at its form and not into its parts. Surroundings that agree on every step within
reach resolve alike.
-/

set_option autoImplicit false

namespace StyleCalc.Node

variable {α : Type} [Scalar α]

-- The results are those of the needs, in the same order. A row of another length does not occur.
def assemble (ctx : Context α) (node : Node α) (scope : Scope)
    (row : List (Except (ExprError α) (Option (Node α)))) : Except (ExprError α) (Option (Node α)) :=
  match node with
  | .raw css => .ok (some (.raw css))
  | .numeric n => .ok (some (.numeric n))
  | .concat _ => (collect row).map (·.map .concat)
  | .url address =>
      if isFinalAddress address then .ok (some (.url address))
      else (ctx.resolveUrl address).map fun final => some (.raw ("url(\"" ++ final ++ "\")"))
  | .call name _ axes => (collect row).map (·.map (.call name · axes))
  | .var name _ =>
      if maxDepth ≤ scope.depth then .error (.maxDepthExceeded name) else row.getD 0 (.ok none)
  | .calculation _ => row.getD 0 (.ok none)
  | .sum _ op _ =>
      binary op.symbol (fun m n => m.sum ctx scope.axis op n) (row.getD 0 (.ok none)) (row.getD 1 (.ok none))
  | .product _ op _ =>
      binary op.symbol (fun m n => m.product op n) (row.getD 0 (.ok none)) (row.getD 1 (.ok none))
  | .num _ => row.getD 0 (.ok none) >>= plain ctx
  | .index => .ok (some (.numeric (Numeric.count (Scalar.ofNat ctx.index))))

theorem answer_var (ctx : Context α) (name : String) (fallback : Option (Node α)) (scope : Scope) :
    answer ctx (var name fallback, scope) =
      assemble ctx (var name fallback) scope ((needs ctx (var name fallback) scope).map (answer ctx)) := by
  by_cases atLimit : maxDepth ≤ scope.depth
  · rw [answer_too_deep ctx name fallback scope atLimit]
    simp only [assemble, if_pos atLimit]
  · simp only [assemble, needs, if_neg atLimit]
    cases given : valueOf ctx name fallback with
    | none =>
        rw [answer_outcome, outcome_var, if_neg atLimit, given]
        rfl
    | some value => exact answer_lookup ctx name fallback value scope (Nat.lt_of_not_le atLimit) given

theorem answer_assembled (ctx : Context α) (node : Node α) (scope : Scope) :
    answer ctx (node, scope) = assemble ctx node scope ((needs ctx node scope).map (answer ctx)) := by
  cases node with
  | raw css => rw [answer_outcome, outcome_raw, assemble]
  | numeric n => rw [answer_outcome, outcome_numeric, assemble]
  | concat ns => rw [answer_concat, assemble]
  | url address =>
      rw [answer_outcome, assemble]
      by_cases final : isFinalAddress address
      · rw [if_pos final]
        exact outcome_constant ctx _ _ _ (by simpa only [isConstant] using final)
      · rw [if_neg final]
        exact outcome_url ctx _ _ address final
  | call name args axes => rw [answer_call, assemble]
  | var name fallback => exact answer_var ctx name fallback scope
  | calculation inner => exact answer_calculation ctx inner scope
  | sum left op right => exact answer_sum ctx left right op scope
  | product left op right => exact answer_product ctx left right op scope
  | num inner => exact answer_num ctx inner scope
  | index => rw [answer_outcome, outcome_index, assemble]

theorem resolve_in_same (ctx other : Context α) (node node' : Node α) (scope : Scope)
    (same : answer other (node', scope) = answer ctx (node, scope)) :
    node'.resolveIn other scope = node.resolveIn ctx scope := by
  have before := (resolve_in_lexical ctx node).balanced scope
  have after := (resolve_in_lexical other node').balanced scope
  exact Prod.ext same (after.trans before.symm)

/-- Two surroundings that no step can tell apart among some expressions in their scopes, where
whatever one of these needs is again among them. -/
structure Indistinct (ctx other : Context α) (among : Node α → Scope → Prop) : Prop where
  needs : ∀ node scope, among node scope → needs other node scope = needs ctx node scope
  assembles : ∀ node scope, among node scope → assemble other node scope = assemble ctx node scope
  closed : ∀ node scope need, among node scope → need ∈ Node.needs ctx node scope → among need.1 need.2

theorem indistinct_resolve (ctx other : Context α) (among : Node α → Scope → Prop)
    (indistinct : Indistinct ctx other among) (node : Node α) (scope : Scope) (start : among node scope) :
    node.resolveIn other scope = node.resolveIn ctx scope := by
  apply resolve_in_same
  induction node, scope using needs_induction ctx with
  | step node scope ih =>
      have row : (Node.needs ctx node scope).map (answer other) =
          (Node.needs ctx node scope).map (answer ctx) :=
        List.map_congr_left fun need needed =>
          ih need.1 need.2 needed (indistinct.closed node scope need start needed)
      rw [answer_assembled, answer_assembled, indistinct.needs node scope start,
        indistinct.assembles node scope start, row]

end StyleCalc.Node
