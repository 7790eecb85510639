import StyleCalc.Url.Host

set_option autoImplicit false

namespace StyleCalc.Url

-- A tab or a line break. They count nowhere but after the drive of a file path.
def isBreak (c : Char) : Bool :=
  c = '\t' || c = '\n' || c = '\r'

def withoutBreaks (s : List Char) : List Char :=
  s.filter (!isBreak ·)

def isSlash (special : Bool) (c : Char) : Bool :=
  c = '/' || (special && c = '\\')

def isSingleDot (segment : String) : Bool :=
  [".", "%2e"].contains (segment.map Char.toLower)

def isDoubleDot (segment : String) : Bool :=
  ["..", "%2e.", ".%2e", "%2e%2e"].contains (segment.map Char.toLower)

def isDrive (segment : List Char) : Bool :=
  match segment with
  | [c, mark] => c.isAlpha && (mark = ':' || mark = '|')
  | _ => false

def startsWithDrive : List Char → Bool
  | [a, b] => isDrive [a, b]
  | a :: b :: c :: _ => isDrive [a, b] && ['/', '\\', '?', '#'].contains c
  | _ => false

def isNormalizedDrive (segment : String) : Bool :=
  isDrive segment.toList && segment.toList.getLast? = some ':'

def leadsDrive (segment : String) : Bool :=
  match segment.toList with
  | a :: b :: rest => isDrive [a, b] && (rest = [] || rest.head? = some '\\')
  | _ => false

def leaveLast (segments : List String) : List String :=
  if segments.getLast?.any leadsDrive then segments else segments.dropLast

structure PathDraft where
  closed : List String
  tail : String
deriving DecidableEq, Repr

namespace PathDraft

def start : PathDraft :=
  ⟨[], ""⟩

def segments (draft : PathDraft) : List String :=
  draft.closed ++ [draft.tail]

def close (draft : PathDraft) : PathDraft :=
  if draft.tail = "" then draft else ⟨draft.segments, ""⟩

def leave (draft : PathDraft) : PathDraft :=
  if draft.tail = "" then ⟨leaveLast draft.closed, ""⟩ else draft

def segmentText (isFile : Bool) (draft : PathDraft) (segment : List Char) : String :=
  match segment with
  | [c, _] =>
      if isFile && draft = start && isDrive segment then String.ofList [c, ':']
      else encode escapedInPath segment
  | _ => encode escapedInPath segment

def cutDrive? (isFile : Bool) (draft : PathDraft) (segment : List Char) :
    Option (List Char × List Char) :=
  match withoutBreaks segment with
  | c :: ':' :: d :: rest =>
      let behindColon := (segment.dropWhile (· ≠ ':')).tail
      if isFile && draft = start && c.isAlpha && behindColon.head?.any isBreak then
        some ([c, ':'], d :: rest)
      else none
  | _ => none

def append (draft : PathDraft) (s : String) (slashFollows : Bool) : PathDraft :=
  if slashFollows then ⟨draft.closed ++ [draft.tail ++ s], ""⟩ else ⟨draft.closed, draft.tail ++ s⟩

def add (isFile : Bool) (draft : PathDraft) (segment : List Char) (slashFollows : Bool) : PathDraft :=
  match draft.cutDrive? isFile segment with
  | some (drive, rest) =>
      append ⟨[String.ofList drive], ""⟩ (encode escapedInPath rest) slashFollows
  | none =>
      let s := draft.segmentText isFile (withoutBreaks segment)
      if isDoubleDot s then if slashFollows then draft.leave.close else draft.leave
      else if isSingleDot s then draft.close
      else draft.append s slashFollows

def addAll (isFile : Bool) (draft : PathDraft) : List (List Char) → PathDraft
  | [] => draft
  | segment :: rest => addAll isFile (draft.add isFile segment (rest ≠ [])) rest

def meetsDrive (draft : PathDraft) : List (List Char) → Bool
  | [] => false
  | segment :: rest =>
      (draft = start && isDrive (withoutBreaks segment))
        || meetsDrive (draft.add true segment (rest ≠ [])) rest

def read (scheme : String) (draft : PathDraft) (s : List Char) : List String :=
  (draft.addAll (scheme = "file") (splitAt (isSlash (isSpecial scheme)) s)).segments

end PathDraft

def dropEmptyFront : List String → List String
  | [] => []
  | [s] => [s]
  | s :: t :: ss => if s = "" then dropEmptyFront (t :: ss) else s :: t :: ss

def splitPath (s : List Char) : List Char × List Char :=
  s.span fun c => c ≠ '?' && c ≠ '#'

def readQueryAndFragment (scheme : String) (s : List Char) : Option String × Option String :=
  let (front, back) := s.span (· ≠ '#')
  let query :=
    match front with
    | '?' :: query => some (encode (escapedInQuery (isSpecial scheme)) query)
    | _ => none
  let fragment :=
    match back with
    | '#' :: fragment => some (encode escapedInFragment fragment)
    | _ => none
  (query, fragment)

end StyleCalc.Url
