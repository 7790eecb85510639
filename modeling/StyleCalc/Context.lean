import StyleCalc.Error

set_option autoImplicit false

namespace StyleCalc

/-- The answers of a host: any functions and any sizes. -/
structure Context (α : Type) where
  resolveUrl : String → Except (ExprError α) String
  lookup : String → Option (Node α)
  fontSize : α
  rootFontSize : α
  viewport : Size α
  element : Size α
  index : Nat

end StyleCalc
