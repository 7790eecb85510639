import StyleCalc.Environment

set_option autoImplicit false

namespace StyleCalc

structure FontSettings (α : Type) where
  size : α
  root : α

structure UrlSettings where
  base : Option String
  allowInsecure : Bool

structure Configuration (α : Type) where
  viewport : Size α
  element : Size α
  fonts : FontSettings α
  urls : UrlSettings
  index : Nat
  «variables» : List (String × String)

variable {α : Type} [Scalar α]

def FontSettings.start : FontSettings α :=
  ⟨Environment.defaultFontSize, Environment.defaultFontSize⟩

def UrlSettings.start : UrlSettings :=
  ⟨none, false⟩

namespace Configuration

def start : Configuration α where
  viewport := ⟨Scalar.ofNat 0, Scalar.ofNat 0⟩
  element := ⟨Scalar.ofNat 0, Scalar.ofNat 0⟩
  fonts := .start
  urls := .start
  index := 0
  «variables» := []

def setVariable (entries : List (String × String)) (name text : String) :
    List (String × String) :=
  if entries.any (·.1 = name) then
    entries.map fun v => if v.1 = name then (name, text) else v
  else entries ++ [(name, text)]

end Configuration

end StyleCalc
