import StyleCalc.Text.Hex

set_option autoImplicit false

namespace StyleCalc.Url

def hexDigits (upper : Bool) (n : Nat) : List Char :=
  (Nat.toDigits 16 n).map fun c => if upper then c.toUpper else c

def encodeByte (b : UInt8) : List Char :=
  '%' :: (if b < 16 then '0' :: hexDigits true b.toNat else hexDigits true b.toNat)

def isControl (c : Char) : Bool :=
  c.toNat < 0x20 || 0x7E < c.toNat

def escapedInFragment (c : Char) : Bool :=
  isControl c || [' ', '"', '<', '>', '\x60'].contains c

def escapedInQuery (special : Bool) (c : Char) : Bool :=
  isControl c || [' ', '"', '#', '<', '>'].contains c || (special && c = '\x27')

def escapedInPath (c : Char) : Bool :=
  escapedInFragment c || ['#', '?', '{', '}'].contains c

def escapedInUserInfo (c : Char) : Bool :=
  escapedInPath c || ['/', ':', ';', '=', '@', '[', '\\', ']', '^', '|'].contains c

def encode (escaped : Char → Bool) (s : List Char) : String :=
  String.ofList (s.flatMap fun c =>
    if escaped c then (String.utf8EncodeChar c).flatMap encodeByte else [c])

def decode : List Char → List UInt8
  | [] => []
  | '%' :: h :: l :: rest =>
      match Text.hexValue? h, Text.hexValue? l with
      | some high, some low => UInt8.ofNat (16 * high + low) :: decode rest
      | _, _ => '%'.toUInt8 :: decode (h :: l :: rest)
  | c :: rest => String.utf8EncodeChar c ++ decode rest

end StyleCalc.Url
