import StyleCalc.Document
import StyleCalc.Text.Hex

set_option autoImplicit false

namespace StyleCalc.Toml

def readMoreDigits (isDigit : Char → Bool) : List Char → Option (List Char × List Char)
  | [] => some ([], [])
  | '_' :: d :: rest =>
      if isDigit d then (readMoreDigits isDigit rest).map fun (ds, tail) => (d :: ds, tail) else none
  | c :: rest =>
      if isDigit c then (readMoreDigits isDigit rest).map fun (ds, tail) => (c :: ds, tail)
      else if c = '_' then none
      else some ([], c :: rest)

def readDigits (isDigit : Char → Bool) (s : List Char) : Option (List Char × List Char) :=
  match s with
  | c :: rest =>
      if isDigit c then (readMoreDigits isDigit rest).map fun (ds, tail) => (c :: ds, tail) else none
  | [] => none

def readWhole (s : List Char) : Option (List Char × List Char) :=
  match s with
  | '0' :: rest => some (['0'], rest)
  | _ => readDigits Char.isDigit s

def isHexDigit (c : Char) : Bool :=
  (Text.hexValue? c).isSome

def isOctalDigit (c : Char) : Bool :=
  '0' ≤ c && c ≤ '7'

def isBinaryDigit (c : Char) : Bool :=
  c = '0' || c = '1'

variable {α : Type} [Scalar α]

def integer? (n : Int) : Option (Document α) :=
  if -(Nat.pow 2 63 : Int) ≤ n ∧ n < (Nat.pow 2 63 : Int) then some (.integer n) else none

def real? (d : Decimal) : Option (Document α) :=
  let x : α := Scalar.ofDecimal d
  if Scalar.isFinite x || d.negative then some (.real (some x)) else none

def readFraction : List Char → Option (Option (List Char) × List Char)
  | '.' :: rest => (readDigits Char.isDigit rest).map fun (ds, tail) => (some ds, tail)
  | s => some (none, s)

def readExponent (s : List Char) : Option (Option Int × List Char) :=
  match s with
  | c :: rest =>
      if c = 'e' ∨ c = 'E' then do
        let (negative, unsigned) := Decimal.readSign rest
        let (ds, tail) ← readDigits Char.isDigit unsigned
        let e : Int := Decimal.ofDigits ds
        return (some (if negative then -e else e), tail)
      else some (none, s)
  | [] => some (none, [])

def readDecimal (negative : Bool) (s : List Char) : Option (Document α × List Char) := do
  let (whole, tail) ← readWhole s
  let (fraction, tail) ← readFraction tail
  let (exponent, rest) ← readExponent tail
  if fraction = none ∧ exponent = none then
    let n : Int := Decimal.ofDigits whole
    return (← integer? (if negative then -n else n), rest)
  else
    let places := fraction.getD []
    let d := ⟨negative, Decimal.ofDigits (whole ++ places), exponent.getD 0 - places.length⟩
    return (← real? d, rest)

def readBased (base : Nat) (isDigit : Char → Bool) (s : List Char) :
    Option (Document α × List Char) := do
  let (ds, rest) ← readDigits isDigit s
  let n ← Text.ofDigits? base ds
  return (← integer? n, rest)

def infinity : α :=
  Scalar.ofNat 1 / Scalar.ofNat 0

def nothing : α :=
  Scalar.ofNat 0 / Scalar.ofNat 0

def readNumber (s : List Char) : Option (Document α × List Char) :=
  match s with
  | '0' :: 'x' :: rest => readBased 16 isHexDigit rest
  | '0' :: 'o' :: rest => readBased 8 isOctalDigit rest
  | '0' :: 'b' :: rest => readBased 2 isBinaryDigit rest
  | _ =>
      match Decimal.readSign s with
      | (negative, 'i' :: 'n' :: 'f' :: rest) =>
          some (.real (some (if negative then -infinity else infinity)), rest)
      | (_, 'n' :: 'a' :: 'n' :: rest) => some (.real (some nothing), rest)
      | (negative, unsigned) => readDecimal negative unsigned

end StyleCalc.Toml
