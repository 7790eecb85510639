set_option autoImplicit false

namespace StyleCalc

/-- How URLs are read, joined and written. A text that only a base makes a URL fails as a relative one. -/
class UrlReader where
  Url : Type
  Failure : Type
  parse : String → Except Failure Url
  join : Url → String → Except Failure Url
  isRelative : Failure → Bool
  message : Failure → String
  scheme : Url → String
  text : Url → String

class LawfulUrlReader [UrlReader] : Prop where
  text_scheme (url : UrlReader.Url) : ∃ rest, UrlReader.text url = UrlReader.scheme url ++ ":" ++ rest

end StyleCalc
