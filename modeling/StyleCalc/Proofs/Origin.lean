import StyleCalc.Proofs.Descent

set_option autoImplicit false

namespace StyleCalc

variable {α β γ : Type}

def ExprError.isArithmetic : ExprError α → Bool
  | .nonNumericOperand _ _ _ => true
  | .incompatibleOperands _ _ _ => true
  | .missingMultiplier _ _ => true
  | .nonNumericDivisor _ => true
  | .unknownUnits _ _ => true
  | .percentUnsupported _ => true
  | _ => false

def OnlyArithmetic (r : Except (ExprError α) β) : Prop :=
  ∀ e, r = .error e → e.isArithmetic

theorem ok_arithmetic (b : β) : OnlyArithmetic (.ok b : Except (ExprError α) β) := by
  intro e given
  cases given

theorem error_arithmetic (e : ExprError α) (arithmetic : e.isArithmetic) :
    OnlyArithmetic (.error e : Except (ExprError α) β) := by
  intro e' given
  cases given
  exact arithmetic

theorem bind_arithmetic (r : Except (ExprError α) β) (next : β → Except (ExprError α) γ)
    (first : OnlyArithmetic r) (rest : ∀ b, OnlyArithmetic (next b)) : OnlyArithmetic (r >>= next) := by
  intro e given
  rcases (except_bind_error_iff r next e).mp given with failed | ⟨b, _, failed⟩
  · exact first e failed
  · exact rest b e failed

theorem map_arithmetic (r : Except (ExprError α) β) (f : β → γ) (first : OnlyArithmetic r) :
    OnlyArithmetic (r.map f) :=
  fun e given => first e ((except_map_error_iff r f e).mp given)

namespace Numeric

variable [Scalar α]

theorem normalize_arithmetic (ctx : Context α) (n : Numeric α) : OnlyArithmetic (n.normalize ctx) := by
  unfold normalize
  split
  · exact ok_arithmetic _
  · split
    · exact ok_arithmetic _
    · exact error_arithmetic _ rfl

theorem of_percent_arithmetic (ctx : Context α) (axis : Option Axis) (n : Numeric α) (percent : α) :
    OnlyArithmetic (ofPercent ctx axis n percent) := by
  unfold ofPercent
  split
  · exact ok_arithmetic _
  · exact error_arithmetic _ rfl

theorem same_kind_arithmetic (ctx : Context α) (axis : Option Axis) (op : SumOp) (m n : Numeric α) :
    OnlyArithmetic (sameKind ctx axis op m n) := by
  unfold sameKind
  split
  · exact ok_arithmetic _
  · split
    · exact map_arithmetic _ _ (of_percent_arithmetic ctx axis n _)
    · split
      · exact map_arithmetic _ _ (of_percent_arithmetic ctx axis m _)
      · exact error_arithmetic _ rfl

theorem same_units_arithmetic (ctx : Context α) (m n : Numeric α) : OnlyArithmetic (sameUnits ctx m n) := by
  unfold sameUnits
  split
  · exact ok_arithmetic _
  · exact bind_arithmetic _ _ (normalize_arithmetic ctx m) fun _ =>
      bind_arithmetic _ _ (normalize_arithmetic ctx n) fun _ => ok_arithmetic _

theorem sum_arithmetic (ctx : Context α) (axis : Option Axis) (op : SumOp) (m n : Numeric α) :
    OnlyArithmetic (m.sum ctx axis op n) :=
  bind_arithmetic _ _ (same_kind_arithmetic ctx axis op m n) fun (p, q) =>
    bind_arithmetic _ _ (same_units_arithmetic ctx p q) fun _ => ok_arithmetic _

theorem product_arithmetic (op : ProductOp) (m n : Numeric α) : OnlyArithmetic (m.product op n) := by
  cases op with
  | mul =>
      dsimp only [product]
      split
      · exact ok_arithmetic _
      · split
        · exact ok_arithmetic _
        · exact error_arithmetic _ rfl
  | div =>
      dsimp only [product]
      split
      · exact ok_arithmetic _
      · exact error_arithmetic _ rfl

end Numeric

namespace Node

theorem operands_arithmetic (left right : Node α) (symbol : Char) :
    OnlyArithmetic (operands left symbol right) := by
  unfold operands
  split
  · exact ok_arithmetic _
  · exact error_arithmetic _ rfl

theorem combine_arithmetic (symbol : Char)
    (apply : Numeric α → Numeric α → Except (ExprError α) (Option (Numeric α)))
    (applies : ∀ m n, OnlyArithmetic (apply m n)) (a b : Option (Node α)) :
    OnlyArithmetic (combine symbol apply a b) := by
  match a, b with
  | none, _ => exact ok_arithmetic _
  | some _, none => exact ok_arithmetic _
  | some left, some right =>
      exact bind_arithmetic _ _ (operands_arithmetic left right symbol) fun (m, n) =>
        bind_arithmetic _ _ (applies m n) fun _ => ok_arithmetic _

theorem binary_error (symbol : Char)
    (apply : Numeric α → Numeric α → Except (ExprError α) (Option (Numeric α)))
    (applies : ∀ m n, OnlyArithmetic (apply m n)) (left right : Except (ExprError α) (Option (Node α)))
    (e : ExprError α) (given : binary symbol apply left right = .error e) :
    .error e ∈ [left, right] ∨ e.isArithmetic := by
  rcases (except_bind_error_iff _ _ _).mp given with failed | ⟨a, _, rest⟩
  · exact .inl (by simp [failed])
  · rcases (except_bind_error_iff _ _ _).mp rest with failed | ⟨b, _, combined⟩
    · exact .inl (by simp [failed])
    · exact .inr (combine_arithmetic symbol apply applies a b e combined)

variable [Scalar α]

theorem plain_arithmetic (ctx : Context α) (value : Option (Node α)) : OnlyArithmetic (plain ctx value) := by
  unfold plain
  split
  · exact bind_arithmetic _ _ (Numeric.normalize_arithmetic ctx _) fun _ => ok_arithmetic _
  · exact ok_arithmetic _

inductive Raises (ctx : Context α) : Node α → Scope → ExprError α → Prop where
  | tooDeep (name : String) (fallback : Option (Node α)) (scope : Scope) (atLimit : maxDepth ≤ scope.depth) :
      Raises ctx (.var name fallback) scope (.maxDepthExceeded name)
  | refused (address : String) (scope : Scope) (e : ExprError α)
      (refusal : ctx.resolveUrl address = .error e) : Raises ctx (.url address) scope e
  | arithmetic (node : Node α) (scope : Scope) (e : ExprError α) (arithmetic : e.isArithmetic) :
      Raises ctx node scope e

theorem error_origin (ctx : Context α) (node : Node α) (scope : Scope) (e : ExprError α)
    (given : answer ctx (node, scope) = .error e) :
    (∃ need ∈ needs ctx node scope, answer ctx need = .error e) ∨ Raises ctx node scope e := by
  cases node with
  | concat ns =>
      rw [answer_concat, except_map_error_iff] at given
      exact .inl (List.mem_map.mp (collect_error_member _ e given))
  | call name args axes =>
      rw [answer_call, except_map_error_iff] at given
      exact .inl (List.mem_map.mp (collect_error_member _ e given))
  | var name fallback =>
      by_cases tooDeep : maxDepth ≤ scope.depth
      · rw [answer_too_deep ctx name fallback scope tooDeep] at given
        cases given
        exact .inr (.tooDeep name fallback scope tooDeep)
      · have room := Nat.lt_of_not_le tooDeep
        cases bound : valueOf ctx name fallback with
        | none =>
            rw [answer_outcome, outcome_var, if_neg tooDeep, bound] at given
            cases given
        | some value =>
            rw [answer_lookup ctx name fallback value scope room bound] at given
            exact .inl ⟨_, (needs_var_iff ctx name fallback scope _).mpr ⟨room, value, bound, rfl⟩, given⟩
  | url address =>
      by_cases final : isFinalAddress address
      · rw [answer_outcome, outcome_constant ctx _ _ _ (by simpa only [isConstant] using final)] at given
        cases given
      · rw [answer_outcome, outcome_url ctx _ _ address final, except_map_error_iff] at given
        exact .inr (.refused address scope e given)
  | calculation inner =>
      rw [answer_calculation] at given
      exact .inl ⟨(inner, scope), by simp [needs], given⟩
  | num inner =>
      rw [answer_num] at given
      rcases (except_bind_error_iff _ _ _).mp given with failed | ⟨value, _, failed⟩
      · exact .inl ⟨(inner, scope), by simp [needs], failed⟩
      · exact .inr (.arithmetic _ _ e (plain_arithmetic ctx value e failed))
  | sum left op right =>
      rw [answer_sum] at given
      rcases binary_error _ _ (Numeric.sum_arithmetic ctx scope.axis op) _ _ e given with failed | arithmetic
      · exact .inl (List.mem_map.mp failed)
      · exact .inr (.arithmetic _ _ e arithmetic)
  | product left op right =>
      rw [answer_product] at given
      rcases binary_error _ _ (Numeric.product_arithmetic op) _ _ e given with failed | arithmetic
      · exact .inl (List.mem_map.mp failed)
      · exact .inr (.arithmetic _ _ e arithmetic)
  | raw css =>
      rw [answer_outcome, outcome_raw] at given
      cases given
  | numeric n =>
      rw [answer_outcome, outcome_numeric] at given
      cases given
  | index =>
      rw [answer_outcome, outcome_index] at given
      cases given

end Node

end StyleCalc
