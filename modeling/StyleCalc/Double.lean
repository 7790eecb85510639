import StyleCalc.Decimal.Shortest
import StyleCalc.Scalar

set_option autoImplicit false

namespace StyleCalc.Double

def fields (x : Float) : Bool × Nat × Nat :=
  let bits := x.toBits.toNat
  (bits / Nat.pow 2 63 = 1, bits / Nat.pow 2 52 % Nat.pow 2 11, bits % Nat.pow 2 52)

def magnitude (exponent fraction : Nat) : Decimal.Binary :=
  if exponent = 0 then ⟨fraction, -1074, false⟩
  else ⟨Nat.pow 2 52 + fraction, (exponent : Int) - 1075, decide (fraction = 0 ∧ 1 < exponent)⟩

def text (x : Float) : String :=
  let (negative, exponent, fraction) := fields x
  let sign := if negative then "-" else ""
  if exponent = 2047 then if fraction = 0 then sign ++ "inf" else "NaN"
  else if exponent = 0 ∧ fraction = 0 then sign ++ "0"
  else
    let (k, e) := (magnitude exponent fraction).shortest
    sign ++ String.ofList (Decimal.positional k e)

def ofDecimal (d : Decimal) : Float :=
  let size := Float.ofScientific d.digits (decide (d.exponent < 0)) d.exponent.natAbs
  if d.negative then -size else size

instance : Scalar Float where
  ofNat n := Float.ofScientific n false 0
  ofDecimal := ofDecimal
  pi := Float.ofBits 0x400921FB54442D18
  lt x y := decide (x < y)
  isFinite := Float.isFinite
  text := text

end StyleCalc.Double
