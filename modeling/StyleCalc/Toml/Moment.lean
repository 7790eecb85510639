import StyleCalc.Decimal.Basic
import StyleCalc.Text.Front

set_option autoImplicit false

namespace StyleCalc.Toml

def readFixed (size : Nat) (s : List Char) : Option (Nat × List Char) :=
  let ds := s.take size
  if ds.length = size ∧ ds.all Char.isDigit then
    some (Decimal.ofDigits ds, s.drop size)
  else none

def isLeap (year : Nat) : Bool :=
  year % 4 = 0 && (year % 100 ≠ 0 || year % 400 = 0)

def daysIn (year month : Nat) : Nat :=
  if month = 2 then if isLeap year then 29 else 28
  else if [4, 6, 9, 11].contains month then 30
  else 31

def padded (size n : Nat) : String :=
  let ds := Nat.toDigits 10 n
  String.ofList (List.replicate (size - ds.length) '0' ++ ds)

def readDate (s : List Char) : Option (String × List Char) := do
  let (year, s) ← readFixed 4 s
  let (month, s) ← readFixed 2 (← Text.dropFront? ['-'] s)
  let (day, s) ← readFixed 2 (← Text.dropFront? ['-'] s)
  if 1 ≤ month ∧ month ≤ 12 ∧ 1 ≤ day ∧ day ≤ daysIn year month then
    some (padded 4 year ++ "-" ++ padded 2 month ++ "-" ++ padded 2 day, s)
  else none

def readSecondFraction : List Char → Option (String × List Char)
  | '.' :: rest =>
      let ds := rest.takeWhile Char.isDigit
      let kept := ((ds.take 9).reverse.dropWhile (· = '0')).reverse
      if ds = [] then none
      else some (if kept = [] then "" else "." ++ String.ofList kept, rest.dropWhile Char.isDigit)
  | s => some ("", s)

def readTime (s : List Char) : Option (String × List Char) := do
  let (hour, s) ← readFixed 2 s
  let (minute, s) ← readFixed 2 (← Text.dropFront? [':'] s)
  let (second, s) ← readFixed 2 (← Text.dropFront? [':'] s)
  let (fraction, s) ← readSecondFraction s
  if hour ≤ 23 ∧ minute ≤ 59 ∧ second ≤ 60 then
    some (padded 2 hour ++ ":" ++ padded 2 minute ++ ":" ++ padded 2 second ++ fraction, s)
  else none

def readOffset (s : List Char) : Option (String × List Char) :=
  match s with
  | c :: rest =>
      if c = 'Z' ∨ c = 'z' then some ("Z", rest)
      else if c = '+' ∨ c = '-' then do
        let (hour, s) ← readFixed 2 rest
        let (minute, s) ← readFixed 2 (← Text.dropFront? [':'] s)
        let sign := if c = '-' ∧ 0 < 60 * hour + minute then "-" else "+"
        if hour ≤ 23 ∧ minute ≤ 59 then
          some (sign ++ padded 2 hour ++ ":" ++ padded 2 minute, s)
        else none
      else some ("", s)
  | [] => some ("", [])

def isTimeMark (c : Char) : Bool :=
  c = 'T' || c = 't' || c = ' '

def readMoment (s : List Char) : Option (String × List Char) :=
  match readDate s with
  | none => readTime s
  | some (date, tail) =>
      match tail with
      | c :: rest =>
          if isTimeMark c && (readFixed 2 rest).isSome then do
            let (time, tail) ← readTime rest
            let (offset, tail) ← readOffset tail
            return (date ++ "T" ++ time ++ offset, tail)
          else some (date, tail)
      | [] => some (date, [])

end StyleCalc.Toml
