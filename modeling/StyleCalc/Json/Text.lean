import StyleCalc.Text.Hex

set_option autoImplicit false

namespace StyleCalc.Json

def escaped? : Char → Option Char
  | '"' => some '"'
  | '\\' => some '\\'
  | '/' => some '/'
  | 'b' => some '\x08'
  | 'f' => some '\x0c'
  | 'n' => some '\n'
  | 'r' => some '\r'
  | 't' => some '\t'
  | _ => none

def readUnits : List Char → Option (List Nat × List Char)
  | [] => none
  | '"' :: rest => some ([], rest)
  | '\\' :: 'u' :: a :: b :: c :: d :: rest => do
      let unit ← Text.ofDigits? 16 [a, b, c, d]
      let (units, tail) ← readUnits rest
      return (unit :: units, tail)
  | '\\' :: e :: rest => do
      let c ← escaped? e
      let (units, tail) ← readUnits rest
      return (c.toNat :: units, tail)
  | c :: rest => do
      if c.toNat < 0x20 ∨ c = '\\' then none
      else
        let (units, tail) ← readUnits rest
        return (c.toNat :: units, tail)

def ofUnits? : List Nat → Option (List Char)
  | [] => some []
  | u :: us =>
      if 0xD800 ≤ u ∧ u < 0xDC00 then
        match us with
        | v :: vs =>
            if 0xDC00 ≤ v ∧ v < 0xE000 then
              (ofUnits? vs).map (Char.ofNat (0x10000 + 1024 * (u - 0xD800) + (v - 0xDC00)) :: ·)
            else none
        | [] => none
      else if 0xDC00 ≤ u ∧ u < 0xE000 then none
      else (ofUnits? us).map (Char.ofNat u :: ·)

def readText (s : List Char) : Option (Option String × List Char) := do
  let (units, rest) ← readUnits s
  return ((ofUnits? units).map String.ofList, rest)

end StyleCalc.Json
