import StyleCalc.Text.Fold
import StyleCalc.Url.Parser
import StyleCalc.Url.Punycode
import StyleCalc.Url.Reader

set_option autoImplicit false

namespace StyleCalc

-- ASCII domains stand for themselves, in small letters. Others need tables that are not kept here, and are refused.
instance asciiDomains : DomainMapping where
  toAscii? bytes :=
    let domain := bytes.map fun b => (Char.ofUInt8 b).toLower
    if bytes.all (· ≤ 127) && (Url.splitAt (· = '.') domain).all Punycode.isLabel then some domain
    else none

instance : LawfulDomainMapping where
  ascii bytes domain mapped c member := by
    change (if bytes.all (· ≤ 127) && _ then some (bytes.map fun b => (Char.ofUInt8 b).toLower) else none) = _
      at mapped
    split at mapped
    · rename_i ascii
      rw [Bool.and_eq_true, List.all_eq_true] at ascii
      obtain rfl := Option.some.inj mapped
      obtain ⟨b, given, rfl⟩ := List.mem_map.mp member
      have low : b.toNat ≤ 127 := UInt8.le_iff_toNat_le.mp (of_decide_eq_true (ascii.1 b given))
      have value : (Char.ofUInt8 b).toNat = b.toNat := UInt8.toNat_toUInt32 b
      by_cases capital : (Char.ofUInt8 b).isUpper
      · have range := (Text.capital_iff _).mp capital
        rw [Text.capital_to_lower _ capital]
        omega
      · rw [Text.other_to_lower _ capital]
        omega
    · cases mapped

instance standardUrls [DomainMapping] : UrlReader where
  Url := Url
  Failure := UrlError
  parse := Url.parse
  join := Url.join
  isRelative e := e = .noBase
  message := UrlError.message
  scheme := Url.scheme
  text := Url.text

instance [DomainMapping] : LawfulUrlReader where
  text_scheme url := ⟨_, url.text_eq_scheme_append⟩

end StyleCalc
