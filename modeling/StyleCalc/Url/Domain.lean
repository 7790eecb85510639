set_option autoImplicit false

namespace StyleCalc

/-- The mapping of the decoded bytes of a host to a domain in ASCII. -/
class DomainMapping where
  toAscii? : List UInt8 → Option (List Char)

class LawfulDomainMapping [DomainMapping] : Prop where
  ascii (bytes : List UInt8) (domain : List Char) :
    DomainMapping.toAscii? bytes = some domain → ∀ c ∈ domain, c.toNat ≤ 127

end StyleCalc
