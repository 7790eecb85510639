import StyleCalc.Text.Hex

set_option autoImplicit false

namespace StyleCalc.Toml

def isSpace (c : Char) : Bool :=
  c = ' ' || c = '\t'

def skipSpace (s : List Char) : List Char :=
  s.dropWhile isSpace

def isPrintable (c : Char) : Bool :=
  c = '\t' || (0x20 ≤ c.toNat && c.toNat ≠ 0x7F)

def newline? : List Char → Option (List Char)
  | '\n' :: rest => some rest
  | '\r' :: '\n' :: rest => some rest
  | _ => none

def skipComment : List Char → List Char
  | '#' :: rest => rest.dropWhile isPrintable
  | s => s

def lineEnd? (s : List Char) : Option (List Char) :=
  match skipComment (skipSpace s) with
  | [] => some []
  | tail => newline? tail

def skipBreaks : List Char → List Char
  | [] => []
  | '\r' :: '\n' :: rest => skipBreaks rest
  | c :: rest => if isSpace c ∨ c = '\n' then skipBreaks rest else c :: rest

def skipBlanks : Nat → List Char → List Char
  | 0, s => s
  | steps + 1, s =>
      match skipBreaks s with
      | '#' :: rest =>
          match newline? (rest.dropWhile isPrintable) with
          | some tail => skipBlanks steps tail
          | none => '#' :: rest
      | tail => tail

def readCodePoint (size : Nat) (s : List Char) : Option Char := do
  let ds := s.take size
  let n ← Text.ofDigits? 16 ds
  if ds.length = size ∧ n.isValidChar then some (Char.ofNat n) else none

def escaped? : Char → Option Char
  | '"' => some '"'
  | '\\' => some '\\'
  | 'b' => some '\x08'
  | 'f' => some '\x0c'
  | 'n' => some '\n'
  | 'r' => some '\r'
  | 't' => some '\t'
  | _ => none

def readEscape : List Char → Option (Char × List Char)
  | 'u' :: rest => (readCodePoint 4 rest).map (·, rest.drop 4)
  | 'U' :: rest => (readCodePoint 8 rest).map (·, rest.drop 8)
  | e :: rest => (escaped? e).map (·, rest)
  | [] => none

def readBasic : Nat → List Char → Option (List Char × List Char)
  | 0, _ => none
  | _ + 1, [] => none
  | _ + 1, '"' :: rest => some ([], rest)
  | steps + 1, '\\' :: rest => do
      let (c, tail) ← readEscape rest
      let (cs, tail) ← readBasic steps tail
      return (c :: cs, tail)
  | steps + 1, c :: rest => do
      if isPrintable c then
        let (cs, tail) ← readBasic steps rest
        return (c :: cs, tail)
      else none

def readVerbatim (s : List Char) : Option (List Char × List Char) :=
  match s.span fun c => isPrintable c && c ≠ '\x27' with
  | (cs, '\x27' :: rest) => some (cs, rest)
  | _ => none

-- The quotes at the end of a text over several lines: three close it, and up to two more in front
-- of them belong to it.
def closing? (quote : Char) (s : List Char) : Option (List Char × List Char) :=
  let size := (s.takeWhile (· = quote)).length
  if size < 3 then none
  else
    let inner := min (size - 3) 2
    some (List.replicate inner quote, s.drop (inner + 3))

def continued? (s : List Char) : Option (List Char) :=
  (newline? (skipSpace s)).map skipBreaks

def readBasicLines : Nat → List Char → Option (List Char × List Char)
  | 0, _ => none
  | steps + 1, s =>
      match s with
      | [] => none
      | '"' :: rest =>
          match closing? '"' s with
          | some done => some done
          | none => (readBasicLines steps rest).map fun (cs, tail) => ('"' :: cs, tail)
      | '\\' :: rest =>
          match continued? rest with
          | some tail => readBasicLines steps tail
          | none => do
              let (c, tail) ← readEscape rest
              let (cs, tail) ← readBasicLines steps tail
              return (c :: cs, tail)
      | c :: rest =>
          match newline? s with
          | some tail => (readBasicLines steps tail).map fun (cs, tail) => ('\n' :: cs, tail)
          | none =>
              if isPrintable c then
                (readBasicLines steps rest).map fun (cs, tail) => (c :: cs, tail)
              else none

def readVerbatimLines : Nat → List Char → Option (List Char × List Char)
  | 0, _ => none
  | steps + 1, s =>
      match s with
      | [] => none
      | '\x27' :: rest =>
          match closing? '\x27' s with
          | some done => some done
          | none => (readVerbatimLines steps rest).map fun (cs, tail) => ('\x27' :: cs, tail)
      | c :: rest =>
          match newline? s with
          | some tail => (readVerbatimLines steps tail).map fun (cs, tail) => ('\n' :: cs, tail)
          | none =>
              if isPrintable c then
                (readVerbatimLines steps rest).map fun (cs, tail) => (c :: cs, tail)
              else none

def skipFirstBreak (s : List Char) : List Char :=
  (newline? s).getD s

def readText (s : List Char) : Option (List Char × List Char) :=
  match s with
  | '"' :: '"' :: '"' :: rest => readBasicLines (rest.length + 1) (skipFirstBreak rest)
  | '\x27' :: '\x27' :: '\x27' :: rest => readVerbatimLines (rest.length + 1) (skipFirstBreak rest)
  | '"' :: rest => readBasic (rest.length + 1) rest
  | '\x27' :: rest => readVerbatim rest
  | _ => none

def isBareKeyChar (c : Char) : Bool :=
  c.isAlphanum || c = '-' || c = '_'

def readKeyPart (s : List Char) : Option (String × List Char) :=
  match s with
  | '"' :: rest => (readBasic (rest.length + 1) rest).map fun (cs, tail) => (String.ofList cs, tail)
  | '\x27' :: rest => (readVerbatim rest).map fun (cs, tail) => (String.ofList cs, tail)
  | _ =>
      match s.span isBareKeyChar with
      | ([], _) => none
      | (cs, tail) => some (String.ofList cs, tail)

def maxNesting : Nat :=
  80

def readKeyParts : Nat → List Char → Option (List String × List Char)
  | 0, _ => none
  | steps + 1, s => do
      let (part, tail) ← readKeyPart (skipSpace s)
      match skipSpace tail with
      | '.' :: rest =>
          let (parts, tail) ← readKeyParts steps rest
          return (part :: parts, tail)
      | tail => return ([part], tail)

def readKey (s : List Char) : Option (List String × List Char) :=
  readKeyParts (maxNesting - 1) s

end StyleCalc.Toml
