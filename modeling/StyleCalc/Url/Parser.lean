import StyleCalc.Decimal.Basic
import StyleCalc.Url.Path

set_option autoImplicit false

namespace StyleCalc.Url

variable [DomainMapping]

def trimmed (s : String) : List Char :=
  let isEdge := fun c : Char => c.toNat ≤ 0x20
  ((s.toList.dropWhile isEdge).reverse.dropWhile isEdge).reverse

def isSchemeChar (c : Char) : Bool :=
  c.isAlphanum || c = '+' || c = '-' || c = '.'

def readScheme? (s : List Char) : Option (String × List Char) :=
  let (front, rest) := s.span (· ≠ ':')
  match withoutBreaks front, rest with
  | c :: cs, ':' :: rest =>
      if c.isAlpha && cs.all isSchemeChar then
        some (String.ofList ((c :: cs).map Char.toLower), rest)
      else none
  | _, _ => none

def readUserInfo (s : List Char) : String × String :=
  let (username, password) := s.span (· ≠ ':')
  (encode escapedInUserInfo username, encode escapedInUserInfo password.tail)

def splitLastAt (s : List Char) : Option (List Char × List Char) :=
  if s.contains '@' then
    let back := (s.reverse.takeWhile (· ≠ '@')).reverse
    some (s.take (s.length - back.length - 1), back)
  else none

def splitHost : Bool → List Char → List Char × List Char
  | _, [] => ([], [])
  | bracketed, c :: rest =>
      if c = ':' ∧ ¬bracketed then ([], c :: rest)
      else
        let (host, tail) := splitHost (if c = '[' then true else if c = ']' then false else bracketed) rest
        (c :: host, tail)

-- A port of at most 65535 after a colon, and what follows it. The usual port of the scheme is
-- left out. A backslash ends a port, also where it is no slash.
def readPort (scheme : String) (s : List Char) : Except UrlError (Option Nat × List Char) :=
  match s with
  | ':' :: rest =>
      let digits := rest.takeWhile Char.isDigit
      let tail := rest.dropWhile Char.isDigit
      let port := Decimal.ofDigits digits
      if 65535 < port then .error .invalidPort
      else if tail = [] ∨ tail.head? = some '\\' then
        .ok (if digits = [] ∨ defaultPort? scheme = some port then none else some port, tail)
      else .error .invalidPort
  | _ => .ok (none, s)

-- The authority after two slashes, and what follows it. Credentials need a host; an at sign
-- without any needs one only in front of a path, a query or a fragment.
def readAuthority (scheme : String) (s : List Char) : Except UrlError (Authority × List Char) := do
  let special := isSpecial scheme
  let (front, rest) := s.span fun c => c ≠ '?' && c ≠ '#' && !isSlash special c
  let (info, hostAndPort) := (splitLastAt front).getD ([], front)
  if front = ['@'] ∧ rest ≠ [] then throw .emptyHost
  let (hostText, portText) := splitHost false hostAndPort
  if special ∧ hostText = [] then throw .emptyHost
  let host ← if special then Host.ofDomain hostText else Host.ofPlain hostText
  if host.isEmpty ∧ portText ≠ [] then throw .emptyHost
  let (port, behind) ← readPort scheme portText
  let (username, password) := readUserInfo info
  if host.isEmpty ∧ (username ≠ "" ∨ password ≠ "") then throw .emptyHost
  return (⟨username, password, host, port⟩, behind ++ rest)

def withAuthority (scheme : String) (s : List Char) : Except UrlError Url := do
  let (authority, rest) ← readAuthority scheme s
  let (path, tail) := splitPath rest
  let (query, fragment) := readQueryAndFragment scheme tail
  let segments :=
    match path with
    | [] => if isSpecial scheme then [""] else []
    | c :: cs =>
        PathDraft.start.read scheme (if isSlash (isSpecial scheme) c then cs else c :: cs)
  return ⟨scheme, some authority, .segments segments, query, fragment⟩

def fileAuthority (host : Host) : Authority :=
  ⟨"", "", host, none⟩

def fileUrl (host : Host) (draft : PathDraft) (s : List Char) : Url :=
  let (path, tail) := splitPath s
  let (query, fragment) := readQueryAndFragment "file" (withoutBreaks tail)
  ⟨"file", some (fileAuthority host), .segments (dropEmptyFront (draft.read "file" path)), query,
    fragment⟩

def readFileHost (s : List Char) : Except UrlError Host :=
  if s = [] then .ok (.name "")
  else
    match Host.ofDomain s with
    | .ok host => .ok (if host = .name "localhost" then .name "" else host)
    | .error e => .error e

def afterSlash? (s : List Char) : Option (List Char) :=
  match s.dropWhile isBreak with
  | c :: rest => if isSlash true c then some rest else none
  | [] => none

def namesDrive (s : List Char) : Bool :=
  PathDraft.start.meetsDrive (splitAt (isSlash true) (splitPath s).1)

def withFileHost (s : List Char) : Except UrlError Url := do
  let (front, rest) := s.span fun c => c ≠ '?' && c ≠ '#' && !isSlash true c
  if isDrive (withoutBreaks front) then return fileUrl (.name "") .start s
  else
    let host ← readFileHost (withoutBreaks front)
    let path := (afterSlash? rest).getD rest
    return fileUrl (if namesDrive path then .name "" else host) .start path

def segments (u : Url) : List String :=
  match u.path with
  | .segments ss => ss
  | .plain _ => []

def host (u : Url) : Host :=
  match u.authority with
  | some a => a.host
  | none => .name ""

def withFileRoot (base : Option Url) (s : List Char) : Url :=
  match base with
  | none => fileUrl (.name "") .start s
  | some b =>
      if startsWithDrive (withoutBreaks s) then fileUrl (.name "") .start s
      else
        match b.segments with
        | first :: _ =>
            if isNormalizedDrive first then fileUrl (.name "") ⟨[first], ""⟩ s
            else fileUrl b.host .start s
        | [] => fileUrl b.host .start s

def ofFileText (s : List Char) : Except UrlError Url :=
  match afterSlash? s with
  | none => .ok (fileUrl (.name "") .start s)
  | some rest =>
      match afterSlash? rest with
      | none => .ok (withFileRoot none rest)
      | some more => withFileHost more

def ofOtherText (scheme : String) (s : List Char) : Except UrlError Url :=
  match s with
  | '/' :: '/' :: rest => withAuthority scheme rest
  | _ =>
      let (path, tail) := splitPath s
      let (query, fragment) := readQueryAndFragment scheme tail
      let read :=
        match path with
        | '/' :: rest => .segments (PathDraft.start.read scheme rest)
        | _ => .plain (encode isControl path)
      .ok ⟨scheme, none, read, query, fragment⟩

def ofSchemeAndText (scheme : String) (s : List Char) : Except UrlError Url :=
  if scheme = "file" then ofFileText s
  else if isSpecial scheme then withAuthority scheme ((withoutBreaks s).dropWhile (isSlash true))
  else ofOtherText scheme (withoutBreaks s)

def parse (s : String) : Except UrlError Url :=
  match readScheme? (trimmed s) with
  | some (scheme, rest) => ofSchemeAndText scheme rest
  | none => .error .noBase

def withPath (base : Url) (draft : PathDraft) (s : List Char) : Url :=
  let (path, tail) := splitPath s
  let (query, fragment) := readQueryAndFragment base.scheme tail
  { base with path := .segments (draft.read base.scheme path), query, fragment }

def withTail (base : Url) (s : List Char) : Url :=
  let (query, fragment) := readQueryAndFragment base.scheme s
  match s with
  | '?' :: _ => { base with query, fragment }
  | _ => { base with fragment }

def joinPath (base : Url) (s : List Char) : Except UrlError Url :=
  match s with
  | '/' :: '/' :: rest => withAuthority base.scheme rest
  | c :: rest =>
      if isSlash true c then
        match rest with
        | d :: more =>
            if isSlash true d then withAuthority base.scheme (more.dropWhile (isSlash true))
            else .ok (base.withPath .start rest)
        | [] => .ok (base.withPath .start rest)
      else if c = '?' ∨ c = '#' then .ok (base.withTail s)
      else .ok (base.withPath ⟨base.segments.dropLast, ""⟩ s)
  | [] => .ok (base.withTail [])

-- The path of a file that a relative one goes on with: the directory, or all of it if a drive is
-- at the end. A drive that is the whole path is closed by a slash, any other one is not.
def fileDraft (segments : List String) : PathDraft :=
  match segments.getLast? with
  | none => .start
  | some last =>
      if isNormalizedDrive last then
        if segments.length = 1 then ⟨segments, ""⟩ else ⟨segments.dropLast, last⟩
      else ⟨segments.dropLast, ""⟩

def joinFile (base : Url) (s : List Char) : Except UrlError Url :=
  match afterSlash? s with
  | some rest =>
      match afterSlash? rest with
      | some more => withFileHost more
      | none => .ok (withFileRoot (some base) rest)
  | none =>
      let text := withoutBreaks s
      if text = [] ∨ text.head? = some '?' ∨ text.head? = some '#' then .ok (base.withTail text)
      else if startsWithDrive text then .ok (fileUrl (.name "") .start s)
      else .ok (fileUrl base.host (fileDraft base.segments) s)

def join (base : Url) (s : String) : Except UrlError Url :=
  let text := withoutBreaks (trimmed s)
  match base.path, text with
  | .plain _, '#' :: _ => .ok (base.withTail text)
  | .plain _, _ => .error .baseWithoutHierarchy
  | .segments _, _ => if base.scheme = "file" then joinFile base (trimmed s) else joinPath base text

end StyleCalc.Url
