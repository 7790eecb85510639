import StyleCalc.Numeric.Kind
import StyleCalc.Scalar
import StyleCalc.Text.Blank

set_option autoImplicit false

namespace StyleCalc

-- A numeric value. Units are kept in small letters by `Numeric.of`.
structure Numeric (α : Type) where
  kind : Kind
  value : α
  units : String
deriving DecidableEq

namespace Numeric

variable {α : Type}

def of (kind : Kind) (value : α) (units : String) : Numeric α :=
  ⟨kind, value, Text.lower units⟩

def count (value : α) : Numeric α :=
  ⟨.count, value, ""⟩

def percent (value : α) : Numeric α :=
  ⟨.percent, value, "%"⟩

def length (value : α) (units : String) : Numeric α :=
  of .length value units

def angle (value : α) (units : String) : Numeric α :=
  of .angle value units

def time (value : α) (units : String) : Numeric α :=
  of .time value units

def withValue (n : Numeric α) (value : α) : Numeric α :=
  { n with value }

def isCount (n : Numeric α) : Bool :=
  n.kind = .count

def isPercent (n : Numeric α) : Bool :=
  n.kind = .percent

variable [Scalar α]

protected def beq (m n : Numeric α) : Bool :=
  m.kind = n.kind && m.value == n.value && m.units = n.units

instance : BEq (Numeric α) := ⟨Numeric.beq⟩

def text (n : Numeric α) : String :=
  Scalar.text (if n.value == Scalar.ofNat 0 then Scalar.ofNat 0 else n.value) ++ n.units

end Numeric

end StyleCalc
