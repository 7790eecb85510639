import StyleCalc.Node.Basic

set_option autoImplicit false

namespace StyleCalc.Node

variable {α : Type} [Scalar α]

mutual
protected def beq : Node α → Node α → Bool
  | .raw a, .raw b => a = b
  | .concat as, .concat bs => beqAll as bs
  | .url a, .url b => a = b
  | .numeric a, .numeric b => a == b
  | .call f as s, .call g bs t => f = g && beqAll as bs && s = t
  | .var x a, .var y b => x = y && beqFallback a b
  | .calculation a, .calculation b => a.beq b
  | .sum a s b, .sum c t d => a.beq c && s = t && b.beq d
  | .product a s b, .product c t d => a.beq c && s = t && b.beq d
  | .num a, .num b => a.beq b
  | .index, .index => true
  | _, _ => false

def beqAll : List (Node α) → List (Node α) → Bool
  | [], [] => true
  | a :: as, b :: bs => a.beq b && beqAll as bs
  | _, _ => false

def beqFallback : Option (Node α) → Option (Node α) → Bool
  | none, none => true
  | some a, some b => a.beq b
  | _, _ => false
end

instance : BEq (Node α) := ⟨Node.beq⟩

end StyleCalc.Node
