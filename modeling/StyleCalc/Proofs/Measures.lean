import StyleCalc.Proofs.Reference

set_option autoImplicit false

namespace StyleCalc

variable {pi : Rat}

inductive Measures (ctx : Context (Exact pi)) : Numeric (Exact pi) → Quantity → Prop where
  | intro (kind : Kind) (x : Rat) (units : String) (linear : units ∈ kind.linear) :
      Measures ctx ⟨kind, .value x, units⟩ ⟨kind, x * ctx.unitSize units⟩

namespace Measures

variable {ctx : Context (Exact pi)} {m n : Numeric (Exact pi)} {p q : Quantity}

theorem of_leaf (linear : n.units ∈ n.kind.linear) (finite : Scalar.isFinite n.value) :
    Measures ctx n (Quantity.of ctx n) := by
  obtain ⟨kind, value, units⟩ := n
  rw [Exact.finite_value value finite]
  exact .intro kind value.toRat units linear

theorem of_canonical (kind : Kind) (x : Rat) :
    Measures ctx ⟨kind, .value x, kind.canonicalUnits⟩ ⟨kind, x⟩ := by
  have measured : Measures ctx ⟨kind, .value x, kind.canonicalUnits⟩ ⟨kind, x * ctx.unitSize kind.canonicalUnits⟩ :=
    .intro kind x kind.canonicalUnits kind.canonical_linear
  rwa [ctx.unit_size_canonical, Rat.mul_one] at measured

theorem kind_eq (measured : Measures ctx n q) : n.kind = q.kind := by
  cases measured
  rfl

theorem normalize (measured : Measures ctx n q) (finite : ctx.Finite) : n.normalize ctx = .ok q.numeric := by
  cases measured with
  | intro kind x units linear => exact Numeric.normalize_linear ctx finite.sized kind x units linear

theorem bare_value (measured : Measures ctx n q) (bare : n.kind = .count ∨ n.kind = .percent) :
    n.value = .value q.value := by
  cases measured with
  | intro kind x units linear =>
      have canonical : units = kind.canonicalUnits := by
        rcases bare with same | same
        · obtain rfl : kind = .count := same
          exact List.mem_singleton.mp linear
        · obtain rfl : kind = .percent := same
          exact List.mem_singleton.mp linear
      dsimp only
      rw [canonical, ctx.unit_size_canonical, Rat.mul_one]

theorem scale (measured : Measures ctx n q) (c : Rat) :
    ∃ x, n.value * .value c = .value x ∧ Measures ctx (n.withValue (.value x)) ⟨q.kind, q.value * c⟩ := by
  cases measured with
  | intro kind x units linear =>
      have order : x * ctx.unitSize units * c = x * c * ctx.unitSize units := by
        rw [Rat.mul_assoc, Rat.mul_comm _ c, Rat.mul_assoc]
      refine ⟨x * c, rfl, ?_⟩
      dsimp only
      rw [order]
      exact .intro kind (x * c) units linear

theorem add (left : Measures ctx m p) (right : Measures ctx n q) (op : SumOp) (units : m.units = n.units) :
    ∃ x, m.value + op.sign * n.value = .value x ∧
      Measures ctx (m.withValue (.value x)) ⟨p.kind, op.plain p.value q.value⟩ := by
  cases left with
  | intro kind x u linear =>
      cases right with
      | intro kind' y u' linear' =>
          obtain rfl : u = u' := units
          refine ⟨op.plain x y, op.sign_plain x y, ?_⟩
          dsimp only
          rw [op.plain_mul]
          exact .intro kind (op.plain x y) u linear

theorem same_units (left : Measures ctx m p) (right : Measures ctx n q) (finite : ctx.Finite)
    (kinds : p.kind = q.kind) :
    ∃ m' n', Numeric.sameUnits ctx m n = .ok (m', n') ∧ Measures ctx m' p ∧ Measures ctx n' q ∧
      m'.units = n'.units := by
  by_cases agree : m.units = n.units
  · exact ⟨m, n, by rw [Numeric.sameUnits, if_pos agree], left, right, agree⟩
  · refine ⟨p.numeric, q.numeric, ?_, of_canonical p.kind p.value, of_canonical q.kind q.value, ?_⟩
    · rw [Numeric.sameUnits, if_neg agree, left.normalize finite, right.normalize finite]
      rfl
    · exact congrArg Kind.canonicalUnits kinds

theorem of_percent (finite : ctx.Finite) (axis : Option Axis) (x : Rat) (isLength : n.kind = .length) :
    ∃ r, Numeric.ofPercent ctx axis n (.value x) = .ok r ∧ Measures ctx r ⟨.length, ctx.side axis * x / 100⟩ := by
  have portion : (Exact.value (ctx.side axis) * Exact.value x / Scalar.ofNat 100 : Exact pi) =
      .value (ctx.side axis * x / 100) := Exact.hundredth _
  refine ⟨_, ?_, of_canonical .length _⟩
  rw [Numeric.ofPercent, if_pos isLength]
  dsimp only
  rw [ctx.along_side finite axis, portion]
  rfl

end Measures

end StyleCalc
