import StyleCalc.Decimal.Basic
/-!
The arithmetic that magnitudes are computed in. Programs run on double precision numbers; statements
about exact values take another instance.
-/

set_option autoImplicit false

namespace StyleCalc

class Scalar (α : Type) extends Add α, Mul α, Div α, Neg α, BEq α where
  ofNat : Nat → α
  ofDecimal : Decimal → α
  pi : α
  lt : α → α → Bool
  isFinite : α → Bool
  text : α → String

namespace Scalar

variable {α : Type} [Scalar α]

def isNaN (x : α) : Bool :=
  !(x == x)

-- The lesser number, the first of two equal ones; a number wins over none.
def least (x y : α) : α :=
  if isNaN x || lt y x then y else x

def greatest (x y : α) : α :=
  if isNaN x || lt x y then y else x

def isNonnegative (x : α) : Bool :=
  lt (ofNat 0) x || x == ofNat 0

end Scalar

end StyleCalc
