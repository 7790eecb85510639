import StyleCalc.Axis
import StyleCalc.Numeric.Basic

set_option autoImplicit false

namespace StyleCalc

inductive SumOp where
  | add
  | sub
deriving DecidableEq, Repr

inductive ProductOp where
  | mul
  | div
deriving DecidableEq, Repr

def SumOp.symbol : SumOp → Char
  | add => '+'
  | sub => '-'

def ProductOp.symbol : ProductOp → Char
  | mul => '*'
  | div => '/'

/-- An expression. `raw` is final text; a `concat` stands for its items with spaces between them; a
`call` may name an axis for each of its arguments; a `var` may carry a fallback. -/
inductive Node (α : Type) where
  | raw (css : String)
  | concat (items : List (Node α))
  | url (address : String)
  | numeric (n : Numeric α)
  | call (name : String) (args : List (Node α)) (axes : Option (List Axis))
  | var (name : String) (fallback : Option (Node α))
  | calculation (inner : Node α)
  | sum (left : Node α) (op : SumOp) (right : Node α)
  | product (left : Node α) (op : ProductOp) (right : Node α)
  | num (inner : Node α)
  | index

namespace Node

variable {α : Type}

def function (name : String) (args : List (Node α)) (axes : Option (List Axis)) : Node α :=
  .call (Text.lower name) args axes

def translateAxes? : String → Option (List Axis)
  | "" => some [.w, .h]
  | "x" => some [.w]
  | "y" => some [.h]
  | "z" => some [.z]
  | "3d" => some [.w, .h, .z]
  | _ => none

def items : Node α → List (Node α)
  | .concat ns => ns
  | n => [n]

def join (a b : Node α) : Node α :=
  .concat (a.items ++ b.items)

@[simp]
theorem items_concat (ns : List (Node α)) : items (.concat ns) = ns := rfl

@[simp]
theorem items_join (a b : Node α) : (a.join b).items = a.items ++ b.items := rfl

end Node

end StyleCalc
