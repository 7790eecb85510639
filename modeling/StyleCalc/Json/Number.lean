import StyleCalc.Document
/-!
Numbers in JSON text. An integer of 64 bits is exact. Any other number is made of as many leading
digits as fit into 64 bits, scaled by a power of ten.
-/

set_option autoImplicit false

namespace StyleCalc.Json

def maxInteger : Nat :=
  Nat.pow 2 64 - 1

def appendDigits : Nat → List Char → Nat × List Char
  | n, [] => (n, [])
  | n, d :: ds =>
      let next := 10 * n + (d.toNat - '0'.toNat)
      if maxInteger < next then (n, d :: ds) else appendDigits next ds

section

variable {α : Type} [Scalar α]

def maxStep : Nat :=
  308

def scaleDown : Nat → α → Nat → α
  | 0, x, places => x / Scalar.ofNat (Nat.pow 10 places)
  | steps + 1, x, places =>
      if places ≤ maxStep then x / Scalar.ofNat (Nat.pow 10 places)
      else if x == Scalar.ofNat 0 then x
      else scaleDown steps (x / Scalar.ofNat (Nat.pow 10 maxStep)) (places - maxStep)

def scale (x : α) (exponent : Int) : Option α :=
  if exponent < 0 then some (scaleDown (exponent.natAbs / maxStep) x exponent.natAbs)
  else if x == Scalar.ofNat 0 then some x
  else if maxStep < exponent then none
  else
    let y := x * Scalar.ofNat (Nat.pow 10 exponent.natAbs)
    if Scalar.isFinite y then some y else none

def ofParts (negative : Bool) (whole fraction : List Char) (exponent : Int) : Option α :=
  let (n, dropped) := appendDigits 0 whole
  let (m, unused) := appendDigits n fraction
  let used := fraction.length - unused.length
  (scale (Scalar.ofNat m) (dropped.length - used + exponent)).map fun x => if negative then -x else x

def readWhole (s : List Char) : Option (List Char × List Char) :=
  let ds := s.takeWhile Char.isDigit
  let rest := s.dropWhile Char.isDigit
  match ds with
  | [] => none
  | '0' :: _ :: _ => none
  | _ => some (ds, rest)

def readFraction : List Char → Option (Option (List Char) × List Char)
  | '.' :: rest =>
      let ds := rest.takeWhile Char.isDigit
      if ds = [] then none else some (some ds, rest.dropWhile Char.isDigit)
  | rest => some (none, rest)

def readExponent (s : List Char) : Option (Option Int × List Char) :=
  match s with
  | mark :: rest =>
      if mark = 'e' ∨ mark = 'E' then
        match Decimal.readExponent s with
        | (_, 'e' :: _) => none
        | (_, 'E' :: _) => none
        | (e, tail) => some (some e, tail)
      else some (none, mark :: rest)
  | [] => some (none, [])

def readNumber (s : List Char) : Option (Document α × List Char) := do
  let (negative, unsigned) := match s with
    | '-' :: rest => (true, rest)
    | _ => (false, s)
  let (whole, tail) ← readWhole unsigned
  let (fraction, tail) ← readFraction tail
  let (exponent, rest) ← readExponent tail
  let n := Decimal.ofDigits whole
  if fraction = none ∧ exponent = none ∧ n ≤ maxInteger ∧ ¬(negative ∧ n = 0) then
    return (.integer (if negative then -n else n), rest)
  else
    return (.real (ofParts negative whole (fraction.getD []) (exponent.getD 0)), rest)

end

end StyleCalc.Json
