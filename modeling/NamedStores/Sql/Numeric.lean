/-
Decimal numbers in the binary form of PostgreSQL: the number of digits, the weight of the
first, a sign word and a display scale, then digits of base 10000, most significant first.
The text is exact: the integer part without needless zeros, and as many decimal places as the
scale says, cut and not rounded. Three sign words stand for values that are no numbers.
-/
import NamedStores.Text.Utf8

namespace NamedStores.Sql.Numeric

/-- Words of 16 bits, the high octet first; an octet left over is dropped. -/
def words : Bytes → List Nat
  | a :: b :: rest => (a.toNat * 256 + b.toNat) :: words rest
  | _ => []

/-- A word as a signed number. -/
def signed (n : Nat) : Int := if n < 0x8000 then n else Int.ofNat n - 0x10000

/-- A digit of base 10000 in at least four decimal digits. -/
def group (n : Nat) : List Char :=
  let ds := Nat.toDigits 10 n
  List.replicate (4 - ds.length) '0' ++ ds

/-- The digit at a position; beyond those given there are zeros. -/
def digitAt (digits : List Nat) (position : Int) : Nat :=
  if position < 0 then 0 else (digits[position.toNat]?).getD 0

/-- The part before the point. -/
def integerPart (digits : List Nat) (weight : Int) : List Char :=
  if weight < 0 then ['0']
  else
    Nat.toDigits 10 (digitAt digits 0) ++
      (List.range weight.toNat).flatMap fun (i : Nat) => group (digitAt digits (i + 1))

/-- So many decimal places after the point. -/
def fractionPart (digits : List Nat) (weight : Int) (scale : Nat) : List Char :=
  ((List.range ((scale + 3) / 4)).flatMap fun (i : Nat) =>
    group (digitAt digits (weight + 1 + i))).take scale

def finiteChars (negative : Bool) (digits : List Nat) (weight : Int) (scale : Nat) : List Char :=
  (if negative then ['-'] else []) ++ integerPart digits weight ++
    if scale = 0 then [] else '.' :: fractionPart digits weight scale

/-- The text of a number, unless its octets end too early. -/
def text? (bs : Bytes) : Option String :=
  match words bs with
  | count :: weight :: sign :: scale :: rest =>
    if sign = 0xC000 then some "NaN"
    else if sign = 0xD000 then some "Infinity"
    else if sign = 0xF000 then some "-Infinity"
    else if rest.length < count then none
    else some (String.ofList (finiteChars (sign = 0x4000) (rest.take count) (signed weight) scale))
  | _ => none

end NamedStores.Sql.Numeric
