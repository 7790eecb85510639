import StyleCalc.Numeric.Basic

set_option autoImplicit false

namespace StyleCalc.Numeric

variable {α : Type} [Scalar α]

def ofText? (s : String) : Option (Numeric α) := do
  let (d, tail) ← Decimal.read (Text.trimChars s.toList)
  let units := Text.lower (String.ofList tail)
  let kind ← Kind.ofUnits? units
  return ⟨kind, Scalar.ofDecimal d, units⟩

end StyleCalc.Numeric
