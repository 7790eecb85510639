import StyleCalc.Url.Percent

set_option autoImplicit false

namespace StyleCalc

inductive Host where
  | name (s : String)
  | ipv4 (address : Nat)
  | ipv6 (pieces : List Nat)
deriving DecidableEq, Repr

namespace Host

def isEmpty (h : Host) : Bool :=
  h = name ""

def ipv4Text (address : Nat) : String :=
  ".".intercalate
    ([Nat.pow 2 24, Nat.pow 2 16, Nat.pow 2 8, 1].map fun unit => toString (address / unit % 256))

def zeroRun (pieces : List Nat) : Nat :=
  (pieces.takeWhile (· = 0)).length

def longestZeros : List Nat → Nat × Nat
  | [] => (0, 0)
  | p :: ps =>
      let here := zeroRun (p :: ps)
      let (start, size) := longestZeros ps
      if size ≤ here then (0, here) else (start + 1, size)

def hexText (piece : Nat) : String :=
  String.ofList (Url.hexDigits false piece)

def ipv6Text (pieces : List Nat) : String :=
  let (start, size) := longestZeros pieces
  let join := fun ps : List Nat => ":".intercalate (ps.map hexText)
  if size < 2 then "[" ++ join pieces ++ "]"
  else "[" ++ join (pieces.take start) ++ "::" ++ join (pieces.drop (start + size)) ++ "]"

def text : Host → String
  | name s => s
  | ipv4 address => ipv4Text address
  | ipv6 pieces => ipv6Text pieces

end Host

structure Authority where
  username : String
  password : String
  host : Host
  port : Option Nat
deriving DecidableEq, Repr

namespace Authority

def credentials (a : Authority) : String :=
  if a.username = "" ∧ a.password = "" then ""
  else a.username ++ (if a.password = "" then "" else ":" ++ a.password) ++ "@"

def text (a : Authority) : String :=
  a.credentials ++ a.host.text
    ++ (match a.port with
      | some port => ":" ++ toString port
      | none => "")

end Authority

inductive UrlPath where
  | segments (ss : List String)
  | plain (s : String)
deriving DecidableEq, Repr

namespace UrlPath

def text : UrlPath → String
  | segments ss => String.join (ss.map ("/" ++ ·))
  | plain s => s

end UrlPath

structure Url where
  scheme : String
  authority : Option Authority
  path : UrlPath
  query : Option String
  fragment : Option String
deriving DecidableEq, Repr

namespace Url

def defaultPort? : String → Option Nat
  | "http" => some 80
  | "ws" => some 80
  | "https" => some 443
  | "wss" => some 443
  | "ftp" => some 21
  | _ => none

def isSpecial (scheme : String) : Bool :=
  ["http", "https", "ws", "wss", "ftp", "file"].contains scheme

-- Between a scheme and a path that starts with two slashes, a dot keeps them from being read as
-- the start of an authority.
def authorityText (u : Url) : String :=
  match u.authority, u.path with
  | some a, _ => "//" ++ a.text
  | none, .segments ("" :: _ :: _) => "/."
  | none, _ => ""

def optionText (mark : String) : Option String → String
  | some s => mark ++ s
  | none => ""

def text (u : Url) : String :=
  u.scheme ++ ":" ++ u.authorityText ++ u.path.text ++ optionText "?" u.query
    ++ optionText "#" u.fragment

theorem text_eq_scheme_append (u : Url) :
    u.text = u.scheme ++ ":" ++ (u.authorityText ++ u.path.text ++ optionText "?" u.query
      ++ optionText "#" u.fragment) := by
  simp only [text, String.append_assoc]

end Url

end StyleCalc
