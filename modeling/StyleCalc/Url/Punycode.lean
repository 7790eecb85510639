import StyleCalc.Text.Front

set_option autoImplicit false

namespace StyleCalc.Punycode

-- A label that starts with `xn--` stands for text beyond ASCII. It is kept as it is written, so only the code
-- points that it adds are read, not where they go.
def digit? (c : Char) : Option Nat :=
  if 'a' ≤ c ∧ c ≤ 'z' then some (c.toNat - 'a'.toNat)
  else if c.isDigit then some (c.toNat - '0'.toNat + 26)
  else none

def threshold (bias place : Nat) : Nat :=
  min 26 (max 1 (place - bias))

def readNumber (bias : Nat) : Nat → Nat → List Char → Option (Nat × List Char)
  | _, _, [] => none
  | place, weight, c :: rest => do
      let d ← digit? c
      let t := threshold bias place
      if d < t then return (d * weight, rest)
      else
        let (n, tail) ← readNumber bias (place + 36) (weight * (36 - t)) rest
        return (d * weight + n, tail)

def scaledBias (n : Nat) : Nat :=
  if 455 < n then 36 + scaledBias (n / 35) else 36 * n / (n + 38)
termination_by n
decreasing_by omega

def nextBias (first : Bool) (delta size : Nat) : Nat :=
  let damped := if first then delta / 700 else delta / 2
  scaledBias (damped + damped / size)

def readPoints : Nat → Nat → Nat → Nat → Nat → List Char → Option (List Nat)
  | 0, _, _, _, _, _ => none
  | steps + 1, bias, point, place, size, s =>
      if s = [] then some []
      else do
        let (delta, rest) ← readNumber bias 36 1 s
        let total := place + delta
        let next := point + total / (size + 1)
        if next.isValidChar then
          let bias := nextBias (place = 0) delta (size + 1)
          let points ← readPoints steps bias next (total % (size + 1) + 1) (size + 1) rest
          return next :: points
        else none

def points? (label : List Char) : Option (List Nat) :=
  let digits := (label.reverse.takeWhile (· ≠ '-')).reverse
  let size := label.length - digits.length - 1
  if label.contains '-' ∧ size = 0 then none
  else readPoints (digits.length + 1) 72 128 0 size digits

def isLabel (label : List Char) : Bool :=
  match Text.dropFront? "xn--".toList label with
  | some code => (points? code).any fun points => points ≠ [] && points.all (0x9F < ·)
  | none => true

end StyleCalc.Punycode
