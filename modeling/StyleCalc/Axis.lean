set_option autoImplicit false

namespace StyleCalc

inductive Axis where
  | w
  | h
  | z
deriving DecidableEq, Repr

structure Size (α : Type) where
  width : α
  height : α
deriving DecidableEq

namespace Size

-- The side that a percentage is taken of. An element has no depth, and without an axis there is
-- no side.
def along {α : Type} (size : Size α) : Option Axis → Option α
  | some .w => some size.width
  | some .h => some size.height
  | _ => none

end Size

end StyleCalc
