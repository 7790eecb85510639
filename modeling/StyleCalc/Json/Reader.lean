import StyleCalc.Json.Number
import StyleCalc.Json.Text
import StyleCalc.Text.Front

set_option autoImplicit false

namespace StyleCalc.Json

variable {α : Type} [Scalar α]

def isSpace (c : Char) : Bool :=
  c = ' ' || c = '\t' || c = '\n' || c = '\r'

def skipSpace (s : List Char) : List Char :=
  s.dropWhile isSpace

def after? (c : Char) (s : List Char) : Option (List Char) :=
  match skipSpace s with
  | d :: rest => if d = c then some rest else none
  | [] => none

def readLiteral (s : List Char) : Option (Document α × List Char) :=
  match Text.dropFront? "null".toList s, Text.dropFront? "true".toList s,
      Text.dropFront? "false".toList s with
  | some rest, _, _ => some (.null, rest)
  | _, some rest, _ => some (.bool true, rest)
  | _, _, some rest => some (.bool false, rest)
  | _, _, _ => readNumber s

mutual
-- The value in front of a text. Every step down takes a character off the text, so its length
-- bounds the steps.
def readValue : Nat → List Char → Option (Document α × List Char)
  | 0, _ => none
  | steps + 1, s =>
      match skipSpace s with
      | '"' :: rest => do
          let (t, tail) ← readText rest
          return (.text t, tail)
      | '[' :: rest =>
          match after? ']' rest with
          | some tail => some (.list [], tail)
          | none => do
              let (items, tail) ← readItems steps rest
              return (.list items, tail)
      | '{' :: rest =>
          match after? '}' rest with
          | some tail => some (.record [], tail)
          | none => do
              let (fields, tail) ← readFields steps rest
              return (.record fields, tail)
      | other => readLiteral other

def readItems : Nat → List Char → Option (List (Document α) × List Char)
  | 0, _ => none
  | steps + 1, s => do
      let (item, tail) ← readValue steps s
      match after? ',' tail with
      | some rest =>
          let (items, tail) ← readItems steps rest
          return (item :: items, tail)
      | none => return ([item], ← after? ']' tail)

def readFields : Nat → List Char → Option (List (Option String × Document α) × List Char)
  | 0, _ => none
  | steps + 1, s => do
      let (key, tail) ← readText (← after? '"' s)
      let (value, tail) ← readValue steps (← after? ':' tail)
      match after? ',' tail with
      | some rest =>
          let (fields, tail) ← readFields steps rest
          return ((key, value) :: fields, tail)
      | none => return ([(key, value)], ← after? '}' tail)
end

def read (s : String) : Option (Document α) := do
  let (value, rest) ← readValue (s.toList.length + 1) s.toList
  if skipSpace rest = [] then some value else none

end StyleCalc.Json
