import StyleCalc.Scalar

set_option autoImplicit false

namespace StyleCalc

-- A value of a file. A `real` without a magnitude is out of range and a `text` without characters
-- is no Unicode text: such values may stand where nobody reads them.
inductive Document (α : Type) where
  | null
  | bool (b : Bool)
  | integer (n : Int)
  | real (x : Option α)
  | text (s : Option String)
  | list (items : List (Document α))
  | record (fields : List (Option String × Document α))

namespace Document

variable {α β : Type}

def fields? (lenient : Bool) (names : List String) :
    Document α → Option (List (Option String × Document α))
  | .record fs => if fs.all (·.1.isSome) then some fs else none
  | .list items =>
      if lenient || items.length ≤ names.length then some ((names.map some).zip items) else none
  | _ => none

def field (fs : List (Option String × Document α)) (name : String)
    (read : Document α → Option β) (missing : β) : Option β :=
  match fs.filter (·.1 = some name) with
  | [] => some missing
  | [(_, d)] => read d
  | _ => none

def ofInt [Scalar α] (n : Int) : α :=
  if n < 0 then -Scalar.ofNat n.natAbs else Scalar.ofNat n.natAbs

def number? [Scalar α] : Document α → Option α
  | .integer n => some (ofInt n)
  | .real x => x
  | _ => none

def natural? : Document α → Option Nat
  | .integer n => if n < 0 then none else some n.natAbs
  | _ => none

def bool? : Document α → Option Bool
  | .bool b => some b
  | _ => none

def text? : Document α → Option String
  | .text s => s
  | _ => none

def optionalText? : Document α → Option (Option String)
  | .null => some none
  | .text s => s.map some
  | _ => none

end Document

end StyleCalc
