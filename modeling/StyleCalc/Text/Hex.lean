set_option autoImplicit false

namespace StyleCalc.Text

def hexValue? (c : Char) : Option Nat :=
  if c.isDigit then some (c.toNat - '0'.toNat)
  else if 'a' ≤ c ∧ c ≤ 'f' then some (c.toNat - 'a'.toNat + 10)
  else if 'A' ≤ c ∧ c ≤ 'F' then some (c.toNat - 'A'.toNat + 10)
  else none

def ofDigits? (base : Nat) (ds : List Char) : Option Nat :=
  ds.foldlM (fun n d => (hexValue? d).bind fun v => if v < base then some (base * n + v) else none) 0

end StyleCalc.Text
