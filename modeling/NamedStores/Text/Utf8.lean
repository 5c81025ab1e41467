/-
UTF-8, both ways. `octets` writes one character; `scan` reads octets one at a time and
keeps, for a character begun, how many octets it still owes and the bounds of the next
one. An octet out of bounds ends the piece begun and starts afresh, so each piece that
is no character is as long as a character's beginning can be. `decode?` refuses such
pieces, `decodeLossy` puts U+FFFD in the place of each.
-/
namespace NamedStores

abbrev Bytes := List UInt8

namespace Utf8

/-- The octets of one character: one to four, by its size. -/
def octets (c : Char) : Bytes :=
  let n := c.toNat
  if n < 0x80 then [.ofNat n]
  else if n < 0x800 then [.ofNat (0xC0 + n / 0x40), .ofNat (0x80 + n % 0x40)]
  else if n < 0x10000 then
    [.ofNat (0xE0 + n / 0x1000), .ofNat (0x80 + n / 0x40 % 0x40), .ofNat (0x80 + n % 0x40)]
  else
    [.ofNat (0xF0 + n / 0x40000), .ofNat (0x80 + n / 0x1000 % 0x40),
      .ofNat (0x80 + n / 0x40 % 0x40), .ofNat (0x80 + n % 0x40)]

def encode (cs : List Char) : Bytes :=
  cs.flatMap octets

def ofString (s : String) : Bytes :=
  encode s.toList

/-! ## Reading -/

/-- A character begun: the octets it owes, the bounds of the next one, and its bits so far. -/
structure Begun where
  owed : Nat
  low : Nat
  high : Nat
  bits : Nat

/-- What the first octet of a character gives: a character, a character begun, or neither. -/
def start (b : Nat) : List (Option Char) × Option Begun :=
  if b < 0x80 then ([some (Char.ofNat b)], none)
  else if b < 0xC2 then ([none], none)
  else if b < 0xE0 then ([], some ⟨1, 0x80, 0xBF, b - 0xC0⟩)
  else if b < 0xF0 then
    ([], some ⟨2, if b = 0xE0 then 0xA0 else 0x80, if b = 0xED then 0x9F else 0xBF, b - 0xE0⟩)
  else if b < 0xF5 then
    ([], some ⟨3, if b = 0xF0 then 0x90 else 0x80, if b = 0xF4 then 0x8F else 0xBF, b - 0xF0⟩)
  else ([none], none)

def step : Option Begun → Nat → List (Option Char) × Option Begun
  | none, b => start b
  | some p, b =>
    if p.low ≤ b ∧ b ≤ p.high then
      let bits := p.bits * 0x40 + (b - 0x80)
      if p.owed ≤ 1 then ([some (Char.ofNat bits)], none)
      else ([], some ⟨p.owed - 1, 0x80, 0xBF, bits⟩)
    else
      let (seen, next) := start b
      (none :: seen, next)

/-- The characters read, with `none` for each piece that is no character. -/
def scan : Option Begun → Bytes → List (Option Char)
  | none, [] => []
  | some _, [] => [none]
  | p, b :: bs =>
    let (seen, next) := step p b.toNat
    seen ++ scan next bs

def decode? (bs : Bytes) : Option (List Char) :=
  (scan none bs).mapM id

def decodeLossy (bs : Bytes) : List Char :=
  (scan none bs).map (·.getD (Char.ofNat 0xFFFD))

def toString? (bs : Bytes) : Option String :=
  (decode? bs).map String.ofList

def toStringLossy (bs : Bytes) : String :=
  String.ofList (decodeLossy bs)

end Utf8

end NamedStores
