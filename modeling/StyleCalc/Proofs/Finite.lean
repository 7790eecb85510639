import StyleCalc.Proofs.OutcomeInvariant
import StyleCalc.Proofs.Rounding

set_option autoImplicit false

namespace StyleCalc

variable {α : Type} [Scalar α]

namespace Numeric

theorem sum_finite (ctx : Context α) (axis : Option Axis) (m : Numeric α) (op : SumOp) (n r : Numeric α)
    (given : m.sum ctx axis op n = .ok (some r)) : Scalar.isFinite r.value := by
  obtain ⟨⟨p, q⟩, kinds, rest⟩ := (except_bind_ok_iff _ _ _).mp given
  obtain ⟨⟨p', q'⟩, units, value⟩ := (except_bind_ok_iff _ _ _).mp rest
  obtain ⟨finite, rfl⟩ := finite_some _ r (Except.ok.inj value)
  exact finite

theorem product_finite (m : Numeric α) (op : ProductOp) (n r : Numeric α)
    (given : m.product op n = .ok (some r)) : Scalar.isFinite r.value := by
  obtain ⟨k, rule⟩ := product_rule op m n _ given
  obtain ⟨base, value, _, _, computed⟩ := product_base op m n k rule
  have result : (base.withValue value).finite? = some r := Except.ok.inj (computed.symm.trans given)
  obtain ⟨finite, rfl⟩ := finite_some _ r result
  exact finite

end Numeric

namespace Node

def FiniteOrWritten (ctx : Context α) (root : Node α) : Node α → Prop
  | .numeric n => Scalar.isFinite n.value ∨ Reaches ctx root (.numeric n)
  | _ => True

-- The index is the one number that is made and not tested.
theorem finite_or_written_invariant (ctx : Context α) (indexed : Scalar.isFinite (Scalar.ofNat ctx.index : α))
    (root : Node α) : OutcomeInvariant ctx root (FiniteOrWritten ctx root) := by
  constructor
  · exact fun _ _ => trivial
  · exact fun n reached => .inr reached
  · exact fun _ _ _ => trivial
  · exact fun _ _ _ _ => trivial
  · exact fun _ _ => trivial
  · exact fun _ _ _ _ => trivial
  · exact fun axis m op n r _ _ added => .inl (Numeric.sum_finite ctx axis m op n r added)
  · exact fun m op n r _ _ multiplied => .inl (Numeric.product_finite m op n r multiplied)
  · exact fun _ _ _ _ finite => .inl finite
  · exact .inl indexed

theorem numbers_stay_finite (ctx : Context Float) (indexed : ctx.index < UInt64.size) (node out : Node Float)
    (scope : Scope) (given : (node.resolveIn ctx scope).1 = .ok (some out)) :
    (∀ n, out.Occurs (.numeric n) → Scalar.isFinite n.value ∨ Reaches ctx node (.numeric n)) ∧
    ((∀ n, Reaches ctx node (.numeric n) → Scalar.isFinite n.value) →
      ∀ n, out.Occurs (.numeric n) → Scalar.isFinite n.value) := by
  have invariant := finite_or_written_invariant ctx (Double.index_finite ctx.index indexed) node
  have each (n : Numeric Float) (occurs : out.Occurs (.numeric n)) :
      Scalar.isFinite n.value ∨ Reaches ctx node (.numeric n) :=
    value_invariant ctx node _ invariant scope out given (.numeric n) occurs
  refine ⟨each, ?_⟩
  intro leaves n occurs
  rcases each n occurs with finite | reached
  · exact finite
  · exact leaves n reached

def width : Node Float :=
  .var "--width" (some (.num (.numeric ⟨.length, 2, "em"⟩)))

def border : Node Float :=
  .concat [.numeric ⟨.length, 1 / 0, "px"⟩, width]

def endlessPage : Context Float :=
  { Context.page fun _ => none with rootFontSize := 0 / 0, viewport := ⟨1 / 0, 1 / 0⟩ }

theorem width_outcome (axis : Option Axis) :
    width.outcome endlessPage axis 5 = .ok (some (.numeric (Numeric.count 32))) := by
  have counted : (Numeric.count (2 * endlessPage.fontSize)).finite? = some (Numeric.count 32) := by decide +kernel
  rw [width, outcome_var, if_neg (by decide)]
  change (num _).outcome endlessPage axis 6 = _
  rw [outcome_num, outcome_numeric]
  exact congrArg (Except.ok ∘ ofNumeric?) counted

theorem border_outcome : (border.resolveIn endlessPage ⟨[.w], 5⟩).1 =
    .ok (some (.concat [.numeric ⟨.length, 1 / 0, "px"⟩, .numeric (Numeric.count 32)])) := by
  rw [resolve_in_outcome, border]
  change (concat _).outcome endlessPage (some .w) 5 = _
  simp only [outcome_concat, List.map_cons, outcome_numeric, width_outcome]
  rfl

theorem width_reach (m : Node Float) (reached : Reaches endlessPage width m) :
    m ∈ [width, .num (.numeric ⟨.length, 2, "em"⟩), .numeric ⟨.length, 2, "em"⟩] := by
  induction reached with
  | root => simp
  | part node part _ member ih =>
      simp only [List.mem_cons, List.not_mem_nil, or_false] at ih
      rcases ih with rfl | rfl | rfl <;> simp [Node.parts, width] at member <;> simp [member]
  | value name fallback value _ bound _ => cases bound

theorem border_numbers_stay_finite :
    endlessPage.index < UInt64.size ∧
    ¬ Scalar.isFinite (1 / 0 : Float) ∧ Reaches endlessPage border (.numeric ⟨.length, 1 / 0, "px"⟩) ∧
    Scalar.isFinite (32 : Float) := by
  have indexed : endlessPage.index < UInt64.size := by decide
  have endless : ¬ Scalar.isFinite (1 / 0 : Float) := by decide
  have borders := (numbers_stay_finite endlessPage indexed border _ ⟨[.w], 5⟩ border_outcome).1
  have widths := (numbers_stay_finite endlessPage indexed width _ ⟨[.w], 5⟩
    (by rw [resolve_in_outcome]; exact width_outcome (some .w))).2
  have leaves (n : Numeric Float) (reached : Reaches endlessPage width (.numeric n)) : Scalar.isFinite n.value := by
    have two : n = ⟨.length, 2, "em"⟩ := by simpa [width] using width_reach _ reached
    rw [two]
    decide
  refine ⟨indexed, endless, ?_, widths leaves (Numeric.count 32) .root⟩
  exact (borders ⟨.length, 1 / 0, "px"⟩ (.part _ _ .root (by simp [parts]))).resolve_left endless

end Node

end StyleCalc
