import StyleCalc.Proofs.Exact
import StyleCalc.Proofs.Kinding
/-!
Plain evaluation in canonical units, and its agreement with resolving. Resolving leaves operands in the
units they share and converts the others; a conversion of linear units is a multiple, so that nothing
hangs on where in an expression it takes place.
-/

set_option autoImplicit false

namespace StyleCalc

variable {pi : Rat}

structure Size.Finite {α : Type} [Scalar α] (size : Size α) : Prop where
  width : Scalar.isFinite size.width
  height : Scalar.isFinite size.height

structure Context.Finite {α : Type} [Scalar α] (ctx : Context α) : Prop where
  fontSize : Scalar.isFinite ctx.fontSize
  rootFontSize : Scalar.isFinite ctx.rootFontSize
  viewport : ctx.viewport.Finite
  element : ctx.element.Finite

structure Context.Sized {α : Type} [Scalar α] (ctx : Context α) : Prop where
  fontSize : Scalar.isFinite ctx.fontSize
  rootFontSize : Scalar.isFinite ctx.rootFontSize
  viewport : ctx.viewport.Finite

theorem Context.Finite.sized {α : Type} [Scalar α] {ctx : Context α} (finite : ctx.Finite) : ctx.Sized :=
  ⟨finite.fontSize, finite.rootFontSize, finite.viewport⟩

namespace Kind

-- The units that are multiples of the canonical one. A lesser or greater side of the viewport is none:
-- a negative magnitude takes the other side.
def linear : Kind → List String
  | count => [""]
  | percent => ["%"]
  | length => ["px", "em", "rem", "vw", "vh"]
  | angle => ["rad", "deg", "grad"]
  | time => ["ms", "s"]

@[simp]
theorem canonical_linear (k : Kind) : k.canonicalUnits ∈ k.linear := by
  cases k <;> decide

theorem linear_convertible (k : Kind) (units : String) (linear : units ∈ k.linear) : units ∈ k.convertible := by
  have included : ∀ u ∈ k.linear, u ∈ k.convertible := by cases k <;> decide
  exact included units linear

end Kind

namespace Context

def unitSize (ctx : Context (Exact pi)) : String → Rat
  | "em" => ctx.fontSize.toRat
  | "rem" => ctx.rootFontSize.toRat
  | "vw" => ctx.viewport.width.toRat / 100
  | "vh" => ctx.viewport.height.toRat / 100
  | "deg" => pi / 180
  | "grad" => pi / 200
  | "s" => 1000
  | _ => 1

def side (ctx : Context (Exact pi)) (axis : Option Axis) : Rat :=
  ((ctx.element.along axis).map Exact.toRat).getD 0

@[simp]
theorem unit_size_canonical (ctx : Context (Exact pi)) (k : Kind) : ctx.unitSize k.canonicalUnits = 1 := by
  cases k <;> rfl

theorem along_side (ctx : Context (Exact pi)) (finite : ctx.Finite) (axis : Option Axis) :
    (ctx.element.along axis).getD (Scalar.ofNat 0) = .value (ctx.side axis) := by
  have width := Exact.finite_value _ finite.element.width
  have height := Exact.finite_value _ finite.element.height
  match axis with
  | some .w => exact width
  | some .h => exact height
  | some .z => rfl
  | none => rfl

end Context

inductive Obstacle where
  | zeroDivisor
  | mismatch
deriving DecidableEq

structure Quantity where
  kind : Kind
  value : Rat
deriving DecidableEq

def SumOp.plain : SumOp → Rat → Rat → Rat
  | add, x, y => x + y
  | sub, x, y => x - y

namespace SumOp

theorem sign_plain (op : SumOp) (x y : Rat) :
    (Exact.value x + op.sign * Exact.value y : Exact pi) = .value (op.plain x y) := by
  cases op with
  | add =>
      have same : x + 1 * y = x + y := by rw [Rat.one_mul]
      exact congrArg Exact.value same
  | sub =>
      have same : x + -1 * y = x - y := by rw [Rat.neg_mul, Rat.one_mul, Rat.sub_eq_add_neg]
      exact congrArg Exact.value same

theorem plain_mul (op : SumOp) (x y factor : Rat) :
    op.plain (x * factor) (y * factor) = op.plain x y * factor := by
  cases op with
  | add => exact (Rat.add_mul x y factor).symm
  | sub =>
      change x * factor - y * factor = (x - y) * factor
      rw [Rat.sub_eq_add_neg, Rat.sub_eq_add_neg, Rat.add_mul, Rat.neg_mul]

end SumOp

namespace Quantity

def of (ctx : Context (Exact pi)) (n : Numeric (Exact pi)) : Quantity :=
  ⟨n.kind, n.value.toRat * ctx.unitSize n.units⟩

def numeric (q : Quantity) : Numeric (Exact pi) :=
  ⟨q.kind, .value q.value, q.kind.canonicalUnits⟩

def beside (side : Rat) (q other : Quantity) : Quantity :=
  if q.kind = .percent ∧ other.kind = .length then ⟨.length, side * q.value / 100⟩ else q

def sum (side : Rat) (p : Quantity) (op : SumOp) (q : Quantity) : Except Obstacle Quantity :=
  let left := p.beside side q
  let right := q.beside side p
  if left.kind = right.kind then .ok ⟨left.kind, op.plain left.value right.value⟩ else .error .mismatch

def product (p : Quantity) (op : ProductOp) (q : Quantity) : Except Obstacle Quantity :=
  match op with
  | .mul =>
      if p.kind = .count then .ok ⟨q.kind, p.value * q.value⟩
      else if q.kind = .count then .ok ⟨p.kind, p.value * q.value⟩
      else .error .mismatch
  | .div =>
      if q.kind = .count then if q.value = 0 then .error .zeroDivisor else .ok ⟨p.kind, p.value / q.value⟩
      else .error .mismatch

theorem sum_same (side : Rat) (p : Quantity) (op : SumOp) (q : Quantity) (same : p.kind = q.kind) :
    p.sum side op q = .ok ⟨p.kind, op.plain p.value q.value⟩ := by
  have alone (a b : Quantity) (same : a.kind = b.kind) : a.beside side b = a := by
    refine if_neg ?_
    rintro ⟨percent, isLength⟩
    rw [same, isLength] at percent
    cases percent
  rw [sum, alone p q same, alone q p same.symm, if_pos same]

theorem sum_percent_left (side : Rat) (p : Quantity) (op : SumOp) (q : Quantity) (percent : p.kind = .percent)
    (isLength : q.kind = .length) :
    p.sum side op q = .ok ⟨.length, op.plain (side * p.value / 100) q.value⟩ := by
  have part : p.beside side q = ⟨.length, side * p.value / 100⟩ := if_pos ⟨percent, isLength⟩
  have whole : q.beside side p = q := if_neg (by simp [isLength])
  rw [sum, part, whole, if_pos isLength.symm]

theorem sum_percent_right (side : Rat) (p : Quantity) (op : SumOp) (q : Quantity) (isLength : p.kind = .length)
    (percent : q.kind = .percent) :
    p.sum side op q = .ok ⟨p.kind, op.plain p.value (side * q.value / 100)⟩ := by
  have whole : p.beside side q = p := if_neg (by simp [isLength])
  have part : q.beside side p = ⟨.length, side * q.value / 100⟩ := if_pos ⟨percent, isLength⟩
  rw [sum, part, whole, if_pos isLength]

theorem sum_mismatch (side : Rat) (p : Quantity) (op : SumOp) (q : Quantity)
    (rule : Kind.sum? p.kind q.kind = none) : p.sum side op q = .error .mismatch := by
  obtain ⟨k, x⟩ := p
  obtain ⟨l, y⟩ := q
  cases k <;> cases l <;> first | rfl | cases rule

end Quantity

-- Every leaf is converted first, and then the operators are applied as they are. An expression that is
-- not arithmetic has no quantity.
def Node.reference (ctx : Context (Exact pi)) (axis : Option Axis) :
    Node (Exact pi) → Except Obstacle Quantity
  | .numeric n => .ok (Quantity.of ctx n)
  | .index => .ok ⟨.count, ctx.index⟩
  | .num inner => do
      let q ← inner.reference ctx axis
      return ⟨.count, q.value⟩
  | .calculation inner => inner.reference ctx axis
  | .sum left op right => do
      let p ← left.reference ctx axis
      let q ← right.reference ctx axis
      p.sum (ctx.side axis) op q
  | .product left op right => do
      let p ← left.reference ctx axis
      let q ← right.reference ctx axis
      p.product op q
  | _ => .error .mismatch

namespace Numeric

theorem pixels_linear (ctx : Context (Exact pi)) (sized : ctx.Sized) (x : Rat) (units : String)
    (linear : units ∈ Kind.length.linear) (other : units ≠ "px") :
    pixels? ctx (.value x) units = some (.value (x * ctx.unitSize units)) := by
  have known : units = "em" ∨ units = "rem" ∨ units = "vw" ∨ units = "vh" := by
    simpa [Kind.linear, other] using linear
  rcases known with rfl | rfl | rfl | rfl
  · change some (Exact.value x * ctx.fontSize) = _
    rw [Exact.finite_value _ sized.fontSize]
    rfl
  · change some (Exact.value x * ctx.rootFontSize) = _
    rw [Exact.finite_value _ sized.rootFontSize]
    rfl
  · exact congrArg some (Exact.part_value _ sized.viewport.width x)
  · exact congrArg some (Exact.part_value _ sized.viewport.height x)

theorem radians_linear (ctx : Context (Exact pi)) (x : Rat) (units : String)
    (linear : units ∈ Kind.angle.linear) (other : units ≠ "rad") :
    radians? (Exact.value x : Exact pi) units = some (.value (x * ctx.unitSize units)) := by
  have known : units = "deg" ∨ units = "grad" := by simpa [Kind.linear, other] using linear
  rcases known with rfl | rfl
  · have order : x * 2 * pi / 360 = x * (pi / 180) := by grind
    exact congrArg some ((Exact.value_div _ _ (by decide)).trans (congrArg Exact.value order))
  · have order : x * pi / 200 = x * (pi / 200) := by grind
    exact congrArg some ((Exact.value_div _ _ (by decide)).trans (congrArg Exact.value order))

theorem milliseconds_linear (ctx : Context (Exact pi)) (x : Rat) (units : String)
    (linear : units ∈ Kind.time.linear) (other : units ≠ "ms") :
    milliseconds? (Exact.value x : Exact pi) units = some (.value (x * ctx.unitSize units)) := by
  obtain rfl : units = "s" := by simpa [Kind.linear, other] using linear
  rfl

theorem normalize_linear (ctx : Context (Exact pi)) (sized : ctx.Sized) (kind : Kind) (x : Rat)
    (units : String) (linear : units ∈ kind.linear) :
    (⟨kind, .value x, units⟩ : Numeric (Exact pi)).normalize ctx =
      .ok ⟨kind, .value (x * ctx.unitSize units), kind.canonicalUnits⟩ := by
  by_cases canonical : units = kind.canonicalUnits
  · rw [normalize, if_pos (.inr (.inr canonical)), canonical, ctx.unit_size_canonical, Rat.mul_one]
  · have converted : converted? ctx ⟨kind, .value x, units⟩ = some (.value (x * ctx.unitSize units)) := by
      cases kind with
      | count => exact absurd (List.mem_singleton.mp linear) canonical
      | percent => exact absurd (List.mem_singleton.mp linear) canonical
      | length => exact pixels_linear ctx sized x units linear canonical
      | angle => exact radians_linear ctx x units linear canonical
      | time => exact milliseconds_linear ctx x units linear canonical
    have convertible : ¬ (kind = .count ∨ kind = .percent ∨ units = kind.canonicalUnits) := by
      rintro (rfl | rfl | same)
      · cases converted
      · cases converted
      · exact canonical same
    rw [normalize, if_neg convertible, converted]

end Numeric

end StyleCalc
