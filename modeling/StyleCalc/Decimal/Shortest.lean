import StyleCalc.Decimal.Basic
/-!
The shortest decimal for a binary number. Every real between two neighbours is rounded to the
nearer one; of the decimals that are rounded to a given number, the one on the coarsest grid of
powers of ten is the one with the fewest digits.
-/

set_option autoImplicit false

namespace StyleCalc.Decimal

-- The binary number `mantissa · 2 ^ exponent`. Its neighbour below is half as far away as the one
-- above if `tightBelow` holds.
structure Binary where
  mantissa : Nat
  exponent : Int
  tightBelow : Bool

namespace Binary

-- Naturals `p` and `r` with `10 ^ e / 2 ^ (exponent - 2) = p / r`: quarters of the last binary
-- place, so that the ends of the rounding interval are whole.
def gridRatio (b : Binary) (e : Int) : Nat × Nat :=
  (Nat.pow 10 e.toNat * Nat.pow 2 (2 - b.exponent).toNat,
    Nat.pow 10 (-e).toNat * Nat.pow 2 (b.exponent - 2).toNat)

def lower (b : Binary) : Nat :=
  4 * b.mantissa - (if b.tightBelow then 1 else 2)

def upper (b : Binary) : Nat :=
  4 * b.mantissa + 2

def roundsTo (b : Binary) (e : Int) (k : Nat) : Bool :=
  let (p, r) := b.gridRatio e
  if b.mantissa % 2 = 0 then b.lower * r ≤ k * p && k * p ≤ b.upper * r
  else b.lower * r < k * p && k * p < b.upper * r

def onGrid (b : Binary) (e : Int) : Option Nat :=
  let (p, r) := b.gridRatio e
  let value := 4 * b.mantissa * r
  let k := value / p
  match b.roundsTo e k, b.roundsTo e (k + 1) with
  | true, true => some (if (k + 1) * p - value ≤ value - k * p then k + 1 else k)
  | true, false => some k
  | false, true => some (k + 1)
  | false, false => none

def finest (b : Binary) : Int :=
  min b.exponent 0

def shortestWithin (b : Binary) : Nat → Nat × Int
  | 0 =>
      let (p, r) := b.gridRatio b.finest
      (4 * b.mantissa * r / p, b.finest)
  | steps + 1 =>
      match b.onGrid (b.finest + (steps + 1)) with
      | some k => (k, b.finest + (steps + 1))
      | none => b.shortestWithin steps

-- A power of ten above `b`: a binary place is worth less than 0.30103 decimal ones.
def coarsest (b : Binary) : Int :=
  (b.exponent + b.mantissa.log2 + 2) * 30103 / 100000 + 1

def shortest (b : Binary) : Nat × Int :=
  b.shortestWithin (b.coarsest - b.finest).toNat

end Binary

end StyleCalc.Decimal
