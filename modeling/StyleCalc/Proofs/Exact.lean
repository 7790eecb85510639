import StyleCalc.Scalar

set_option autoImplicit false

namespace StyleCalc

/-- A rational or nothing. Half a turn is taken to be the given rational. -/
inductive Exact (pi : Rat) where
  | value (x : Rat)
  | undefined
deriving DecidableEq

namespace Exact

variable {pi : Rat}

def map (f : Rat → Rat) : Exact pi → Exact pi
  | value x => value (f x)
  | undefined => undefined

def map₂ (f : Rat → Rat → Rat) : Exact pi → Exact pi → Exact pi
  | value x, value y => value (f x y)
  | _, _ => undefined

def quotient : Exact pi → Exact pi → Exact pi
  | value x, value y => if y = 0 then undefined else value (x / y)
  | _, _ => undefined

def ofDecimal (d : Decimal) : Rat :=
  let digits : Int := if d.negative then -d.digits else d.digits
  if d.exponent < 0 then mkRat digits (Nat.pow 10 d.exponent.natAbs)
  else mkRat (digits * Nat.pow 10 d.exponent.natAbs) 1

def related (r : Rat → Rat → Bool) : Exact pi → Exact pi → Bool
  | value x, value y => r x y
  | _, _ => false

def text : Exact pi → String
  | value x => toString x
  | undefined => "undefined"

def toRat : Exact pi → Rat
  | value x => x
  | undefined => 0

instance : Scalar (Exact pi) where
  add := map₂ (· + ·)
  mul := map₂ (· * ·)
  div := quotient
  neg := map (- ·)
  beq := related fun x y => decide (x = y)
  ofNat n := value n
  ofDecimal d := value (ofDecimal d)
  pi := value pi
  lt := related fun x y => decide (x < y)
  isFinite x := x ≠ undefined
  text := text

@[simp]
theorem value_mul (x y : Rat) : (value x * value y : Exact pi) = value (x * y) := rfl

theorem value_div (x y : Rat) (nonzero : y ≠ 0) : (value x / value y : Exact pi) = value (x / y) :=
  if_neg nonzero

theorem hundredth (x : Rat) : (value x / Scalar.ofNat 100 : Exact pi) = value (x / 100) :=
  value_div x 100 (by decide)

@[simp]
theorem div_zero (x : Exact pi) : x / value 0 = undefined := by
  cases x <;> rfl

@[simp]
theorem mul_undefined (x : Exact pi) : x * undefined = undefined := by
  cases x <;> rfl

theorem finite_value (x : Exact pi) (finite : Scalar.isFinite x) : x = value x.toRat := by
  cases x with
  | value x => rfl
  | undefined => cases finite

theorem part_value (side : Exact pi) (finite : Scalar.isFinite side) (x : Rat) :
    side * value x / Scalar.ofNat 100 = value (x * (side.toRat / 100)) := by
  have order : side.toRat * x / 100 = x * (side.toRat / 100) := by grind
  rw [← order, ← hundredth, ← value_mul, ← finite_value side finite]

end Exact

end StyleCalc
