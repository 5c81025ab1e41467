/-
Percent encoding of text inside addresses. A character is written as itself or as its
octets, each `%` and two upper-case hex digits; which ASCII characters stay depends on
the place, and what is not ASCII never stays. Decoding reads any `%` with two hex digits
and leaves every other octet alone.
-/
import NamedStores.Text.Hex

namespace NamedStores.Percent

/-- Control characters, DEL and everything outside ASCII: written encoded in every place. -/
def isControl (c : Char) : Bool :=
  c.toNat < 0x20 || 0x7E < c.toNat

def isQuery (c : Char) : Bool :=
  isControl c || c ∈ [' ', '"', '#', '<', '>']

def isFragment (c : Char) : Bool :=
  isControl c || c ∈ [' ', '"', '<', '>', Char.ofNat 0x60]

def isPath (c : Char) : Bool :=
  isFragment c || c ∈ ['#', '?', '\x7b', '\x7d']

def isUserInfo (c : Char) : Bool :=
  isPath c || c ∈ ['/', ':', ';', '=', '@', '[', '\\', ']', '^', '|']

def octet (b : UInt8) : List Char :=
  ['%', Hex.upperDigit (b.toNat / 16), Hex.upperDigit (b.toNat % 16)]

/-- Encodes the characters that `special` picks out. -/
def encode (special : Char → Bool) (cs : List Char) : List Char :=
  cs.flatMap fun c => if special c then (Utf8.octets c).flatMap octet else [c]

/-- The octets of a text after undoing `%XX`. -/
def decode : List Char → Bytes
  | '%' :: h :: l :: cs =>
    match Hex.value? h, Hex.value? l with
    | some high, some low => .ofNat (high * 16 + low) :: decode cs
    | _, _ => Utf8.octets '%' ++ decode (h :: l :: cs)
  | c :: cs => Utf8.octets c ++ decode cs
  | [] => []

end NamedStores.Percent
