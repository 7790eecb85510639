import StyleCalc.Url.Basic
import StyleCalc.Url.Domain

set_option autoImplicit false

namespace StyleCalc

inductive UrlError where
  | emptyHost
  | invalidDomain
  | invalidPort
  | invalidIPv4
  | invalidIPv6
  | invalidDomainCharacter
  | noBase
  | baseWithoutHierarchy
deriving DecidableEq, Repr

namespace UrlError

def message : UrlError → String
  | emptyHost => "empty host"
  | invalidDomain => "invalid international domain name"
  | invalidPort => "invalid port number"
  | invalidIPv4 => "invalid IPv4 address"
  | invalidIPv6 => "invalid IPv6 address"
  | invalidDomainCharacter => "invalid domain character"
  | noBase => "relative URL without a base"
  | baseWithoutHierarchy => "relative URL with a cannot-be-a-base base"

end UrlError

namespace Url

def splitAt (isSeparator : Char → Bool) : List Char → List (List Char)
  | [] => [[]]
  | c :: rest =>
      if isSeparator c then [] :: splitAt isSeparator rest
      else
        match splitAt isSeparator rest with
        | part :: parts => (c :: part) :: parts
        | [] => [[c]]

end Url

namespace Host

open Url (splitAt)
open Text (ofDigits?)

def ipv4Number? : List Char → Option Nat
  | [] => none
  | ['0'] => some 0
  | '0' :: 'x' :: ds => ofDigits? 16 ds
  | '0' :: 'X' :: ds => ofDigits? 16 ds
  | '0' :: ds => ofDigits? 8 ds
  | ds => ofDigits? 10 ds

def dottedParts (s : List Char) : List (List Char) :=
  let parts := splitAt (· = '.') s
  if parts.length ≠ 1 ∧ parts.getLast? = some [] then parts.dropLast else parts

def endsInNumber (s : List Char) : Bool :=
  match (dottedParts s).getLast? with
  | some part => part ≠ [] && (part.all Char.isDigit || (ipv4Number? part).isSome)
  | none => false

-- The bytes in front each take one number, the last number takes the bytes that are left.
def ofIPv4Numbers? (numbers : List Nat) : Option Nat :=
  match numbers.getLast? with
  | none => none
  | some last =>
      let front := numbers.dropLast
      if 3 < front.length ∨ front.any (255 < ·) ∨ Nat.pow 256 (4 - front.length) ≤ last then none
      else some (front.foldl (fun a n => 256 * a + n) 0 * Nat.pow 256 (4 - front.length) + last)

def ipv4? (s : List Char) : Option Nat := do
  ofIPv4Numbers? (← (dottedParts s).mapM ipv4Number?)

def decimalByte? (ds : List Char) : Option Nat :=
  if ds = [] ∨ (1 < ds.length ∧ ds.head? = some '0') then none
  else (ofDigits? 10 ds).filter (· ≤ 255)

def ipv4Pieces? (s : List Char) : Option (List Nat) := do
  match ← (splitAt (· = '.') s).mapM decimalByte? with
  | [a, b, c, d] => some [256 * a + b, 256 * c + d]
  | _ => none

def ipv6Piece? (ds : List Char) : Option Nat :=
  if ds = [] ∨ 4 < ds.length then none else ofDigits? 16 ds

def ipv6Pieces? (tailMayBeDotted : Bool) : List (List Char) → Option (List Nat)
  | [] => some []
  | [part] =>
      if tailMayBeDotted && part.contains '.' then ipv4Pieces? part
      else (ipv6Piece? part).map ([·])
  | part :: parts => do
      let p ← ipv6Piece? part
      return p :: (← ipv6Pieces? tailMayBeDotted parts)

def splitDoubleColon : List Char → Option (List Char × List Char)
  | [] => none
  | ':' :: ':' :: rest => some ([], rest)
  | c :: rest => (splitDoubleColon rest).map fun (left, right) => (c :: left, right)

def ipv6Side? (tailMayBeDotted : Bool) (s : List Char) : Option (List Nat) :=
  if s = [] then some [] else ipv6Pieces? tailMayBeDotted (splitAt (· = ':') s)

def ipv6? (s : List Char) : Option (List Nat) :=
  match splitDoubleColon s with
  | none => (ipv6Side? true s).filter (·.length = 8)
  | some (left, right) => do
      let front ← ipv6Side? false left
      let back ← ipv6Side? true right
      if front.length + back.length ≤ 7 then
        some (front ++ List.replicate (8 - front.length - back.length) 0 ++ back)
      else none

def forbiddenInDomain (c : Char) : Bool :=
  c.toNat ≤ 0x20 || c.toNat = 0x7F
    || ['%', '#', '/', ':', '<', '>', '?', '@', '[', '\\', ']', '^', '|'].contains c

def forbiddenInHost (c : Char) : Bool :=
  ['\x00', '\t', '\n', '\r', ' ', '#', '/', ':', '<', '>', '?', '@', '[', '\\', ']', '^', '|'].contains c

def ofBrackets (s : List Char) : Except UrlError Host :=
  match s.getLast? with
  | some ']' =>
      match ipv6? s.dropLast with
      | some pieces => .ok (.ipv6 pieces)
      | none => .error .invalidIPv6
  | _ => .error .invalidIPv6

def ofDomain [DomainMapping] (s : List Char) : Except UrlError Host :=
  match s with
  | '[' :: rest => ofBrackets rest
  | _ =>
      match DomainMapping.toAscii? (Url.decode s) with
      | none => .error .invalidDomain
      | some domain =>
          if domain.any forbiddenInDomain then .error .invalidDomain
          else if domain = [] then .error .emptyHost
          else if endsInNumber domain then
            match ipv4? domain with
            | some address => .ok (.ipv4 address)
            | none => .error .invalidIPv4
          else .ok (.name (String.ofList domain))

def ofPlain (s : List Char) : Except UrlError Host :=
  match s with
  | '[' :: rest => ofBrackets rest
  | _ =>
      if s.any forbiddenInHost then .error .invalidDomainCharacter
      else .ok (.name (Url.encode Url.isControl s))

end Host

end StyleCalc
