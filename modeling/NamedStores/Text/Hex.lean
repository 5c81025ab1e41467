/-
Hexadecimal digits. Octets are written with two lower-case digits each, the high half
first; digits of either case are read.
-/
import NamedStores.Text.Utf8

namespace NamedStores.Hex

/-- The digit of a number below 16, in lower case. -/
def digit (n : Nat) : Char :=
  if n < 10 then Char.ofNat (0x30 + n) else Char.ofNat (0x57 + n)

def upperDigit (n : Nat) : Char :=
  if n < 10 then Char.ofNat (0x30 + n) else Char.ofNat (0x37 + n)

/-- The number a digit stands for, in either case. -/
def value? (c : Char) : Option Nat :=
  let n := c.toNat
  if 0x30 ≤ n ∧ n ≤ 0x39 then some (n - 0x30)
  else if 0x41 ≤ n ∧ n ≤ 0x46 then some (n - 0x37)
  else if 0x61 ≤ n ∧ n ≤ 0x66 then some (n - 0x57)
  else none

def encode (bs : Bytes) : List Char :=
  bs.flatMap fun b => [digit (b.toNat / 16), digit (b.toNat % 16)]

/-- Pairs of digits as octets. A digit left over or any other character is refused. -/
def decode? : List Char → Option Bytes
  | [] => some []
  | [_] => none
  | h :: l :: cs => do
    let high ← value? h
    let low ← value? l
    let rest ← decode? cs
    return .ofNat (high * 16 + low) :: rest

def text (bs : Bytes) : String :=
  String.ofList (encode bs)

/-- The digits of a number, most significant first, without leading zeros. -/
def numeral (n : Nat) : List Char :=
  Nat.toDigits 16 n

end NamedStores.Hex
