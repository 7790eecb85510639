import StyleCalc.Toml.Lexical
import StyleCalc.Toml.Moment
import StyleCalc.Toml.Number
import StyleCalc.Toml.Table

set_option autoImplicit false

namespace StyleCalc.Toml

variable {α : Type} [Scalar α]

def momentField : String :=
  "$__toml_private_datetime"

def readScalar (s : List Char) : Option (Document α × List Char) :=
  match Text.dropFront? "true".toList s, Text.dropFront? "false".toList s, readMoment s with
  | some rest, _, _ => some (.bool true, rest)
  | _, some rest, _ => some (.bool false, rest)
  | _, _, some (moment, rest) => some (.record [(some momentField, .text (some moment))], rest)
  | _, _, _ => readNumber s

def splitKey (parts : List String) : Option (List String × String) :=
  parts.getLast?.map (parts.dropLast, ·)

def skipFiller (s : List Char) : List Char :=
  skipBlanks (s.length + 1) s

mutual
-- The value in front of a text. The first number bounds the nesting and the second one the steps;
-- every step takes a character off the text.
def readValue : Nat → Nat → List Char → Option (Document α × List Char)
  | _, 0, _ => none
  | nesting, steps + 1, s =>
      match s with
      | '[' :: rest =>
          match nesting with
          | 0 => none
          | n + 1 =>
              match skipFiller rest with
              | ']' :: tail => some (.list [], tail)
              | _ => do
                  let (items, tail) ← readItems n steps rest
                  return (.list items, tail)
      | '\x7b' :: rest =>
          match nesting with
          | 0 => none
          | n + 1 =>
              match skipSpace rest with
              | '\x7d' :: tail => some (.record [], tail)
              | _ => do
                  let (entries, tail) ← readPairs n steps [] rest
                  return (.record (fieldsOf entries), tail)
      | '"' :: _ => (readText s).map fun (cs, tail) => (.text (some (String.ofList cs)), tail)
      | '\x27' :: _ => (readText s).map fun (cs, tail) => (.text (some (String.ofList cs)), tail)
      | _ => readScalar s

def readItems : Nat → Nat → List Char → Option (List (Document α) × List Char)
  | _, 0, _ => none
  | nesting, steps + 1, s =>
      match skipFiller s with
      | ']' :: tail => some ([], tail)
      | start => do
          let (item, tail) ← readValue nesting steps start
          match skipFiller tail with
          | ',' :: rest =>
              let (items, tail) ← readItems nesting steps rest
              return (item :: items, tail)
          | ']' :: tail => return ([item], tail)
          | _ => none

def readPairs : Nat → Nat → Entries α → List Char → Option (Entries α × List Char)
  | _, 0, _, _ => none
  | nesting, steps + 1, entries, s => do
      let (parts, tail) ← readKey s
      let (path, key) ← splitKey parts
      match tail with
      | '=' :: rest =>
          let (value, tail) ← readValue nesting steps (skipSpace rest)
          let entries ← entries.add true key value path
          match skipSpace tail with
          | ',' :: rest => readPairs nesting steps entries rest
          | '\x7d' :: tail => return (entries, tail)
          | _ => none
      | _ => none
end

inductive Line (α : Type) where
  | pair (path : List String) (key : String) (value : Document α)
  | header (path : List String) (key : String)
  | next (path : List String) (key : String)

def readHeader (brackets : List Char) (s : List Char) :
    Option ((List String × String) × List Char) := do
  let (parts, tail) ← readKey s
  return (← splitKey parts, ← lineEnd? (← Text.dropFront? brackets tail))

def readLine (s : List Char) : Option (Line α × List Char) :=
  match s with
  | '[' :: '[' :: rest => do
      let ((path, key), tail) ← readHeader [']', ']'] rest
      return (.next path key, tail)
  | '[' :: rest => do
      let ((path, key), tail) ← readHeader [']'] rest
      return (.header path key, tail)
  | _ => do
      let (parts, tail) ← readKey s
      let (path, key) ← splitKey parts
      match tail with
      | '=' :: rest =>
          let (value, tail) ← readValue (maxNesting - 1) (rest.length + 1) (skipSpace rest)
          return (.pair path key value, ← lineEnd? tail)
      | _ => none

def readLines : Nat → List Char → Option (List (Line α))
  | 0, _ => none
  | steps + 1, s =>
      match skipSpace s with
      | [] => some []
      | c :: rest =>
          if c = '#' ∨ c = '\n' ∨ c = '\r' then do
            readLines steps (← lineEnd? (c :: rest))
          else do
            let (line, tail) ← readLine (c :: rest)
            return line :: (← readLines steps tail)

structure Draft (α : Type) where
  entries : Entries α
  current : List String

namespace Draft

def add (draft : Draft α) : Line α → Option (Draft α)
  | .pair path key value => do
      let entries ← draft.entries.change (fun es => es.add true key value path) draft.current
      return { draft with entries }
  | .header path key => do
      return ⟨← draft.entries.change (Entries.openTable key) path, path ++ [key]⟩
  | .next path key => do
      return ⟨← draft.entries.change (Entries.openNext key) path, path ++ [key]⟩

end Draft

def skipByteOrderMark : List Char → List Char
  | '\ufeff' :: rest => rest
  | s => s

def read (s : String) : Option (Document α) := do
  let text := skipByteOrderMark s.toList
  let lines ← readLines (text.length + 1) text
  let draft ← lines.foldlM Draft.add (⟨[], []⟩ : Draft α)
  return .record (fieldsOf draft.entries)

end StyleCalc.Toml
