set_option autoImplicit false

namespace StyleCalc

structure Decimal where
  negative : Bool
  digits : Nat
  exponent : Int
deriving DecidableEq, Repr

namespace Decimal

def ofDigits (ds : List Char) : Nat :=
  ds.foldl (fun n d => 10 * n + (d.toNat - '0'.toNat)) 0

def readSign : List Char → Bool × List Char
  | '+' :: rest => (false, rest)
  | '-' :: rest => (true, rest)
  | rest => (false, rest)

-- The exponent in front of a text. A mark counts only if digits follow it, so `2em` has none.
def readExponent : List Char → Int × List Char
  | [] => (0, [])
  | mark :: rest =>
      let (negative, tail) := readSign rest
      let ds := tail.takeWhile Char.isDigit
      if (mark = 'e' ∨ mark = 'E') ∧ ds ≠ [] then
        (if negative then -(ofDigits ds : Int) else ofDigits ds, tail.dropWhile Char.isDigit)
      else (0, mark :: rest)

def readFraction : List Char → List Char × List Char
  | '.' :: rest => (rest.takeWhile Char.isDigit, rest.dropWhile Char.isDigit)
  | rest => ([], rest)

def read (text : List Char) : Option (Decimal × List Char) :=
  let (negative, unsigned) := readSign text
  let whole := unsigned.takeWhile Char.isDigit
  let (fraction, tail) := readFraction (unsigned.dropWhile Char.isDigit)
  if whole = [] ∧ fraction = [] then none
  else
    let (exponent, rest) := readExponent tail
    some (⟨negative, ofDigits (whole ++ fraction), exponent - fraction.length⟩, rest)

def ofText? (text : List Char) : Option Decimal :=
  match read text with
  | some (d, []) => some d
  | _ => none

def positional (digits : Nat) (exponent : Int) : List Char :=
  let ds := Nat.toDigits 10 digits
  if 0 ≤ exponent then ds ++ List.replicate exponent.toNat '0'
  else
    let places := (-exponent).toNat
    let padded := List.replicate (places + 1 - ds.length) '0' ++ ds
    padded.take (padded.length - places) ++ '.' :: padded.drop (padded.length - places)

end Decimal

end StyleCalc
