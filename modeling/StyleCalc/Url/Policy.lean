import StyleCalc.Url.Reader

set_option autoImplicit false

namespace StyleCalc

variable [UrlReader]

structure UrlPolicy where
  base : Option UrlReader.Url
  allowInsecure : Bool

inductive UrlRefusal where
  | malformed (reason : String)
  | relative
  | insecure (scheme : String)
deriving DecidableEq

def UrlRefusal.message : UrlRefusal → String
  | malformed reason => reason
  | relative => "relative url without a base"
  | insecure scheme => scheme ++ " urls are not allowed"

namespace UrlPolicy

def isSecure (scheme : String) : Bool :=
  scheme = "https" || scheme = "data"

def target (policy : UrlPolicy) (address : String) : Except UrlRefusal UrlReader.Url :=
  match UrlReader.parse address with
  | .ok url => .ok url
  | .error e =>
      if UrlReader.isRelative e then
        match policy.base with
        | some base => (UrlReader.join base address).mapError fun e => .malformed (UrlReader.message e)
        | none => .error .relative
      else .error (.malformed (UrlReader.message e))

def resolve (policy : UrlPolicy) (address : String) : Except UrlRefusal String := do
  let url ← policy.target address
  if isSecure (UrlReader.scheme url) || policy.allowInsecure then return UrlReader.text url
  else throw (.insecure (UrlReader.scheme url))

end UrlPolicy

end StyleCalc
