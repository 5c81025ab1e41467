/-
Numbers in texts. A text stands for a number if it is one from end to end, blanks around it
aside: digits with maybe a sign, a point and an exponent. Without point and exponent it is an
integer, as long as 64 bits hold it. A real is written with 15 significant digits, a half
rounded up, and at least one digit on each side of the point; from `1e15` on and below `1e-4`
with an exponent of two digits or more.
-/
import NamedStores.Double.Shortest
import NamedStores.Sqlite.Value
import NamedStores.Text.Integer

namespace NamedStores.Sqlite.Number

/-! ## Reading -/

def isBlank (c : Char) : Bool := c = ' ' || (9 ≤ c.toNat && c.toNat ≤ 13)

/-- The exponent at the start of a text, if its mark is followed by one, and what follows. -/
def readExponent (cs : List Char) : Option (Int × List Char) :=
  let digits (sign : Int) (ds : List Char) : Option (Int × List Char) :=
    match ds.takeWhile Integer.isDigit with
    | [] => none
    | es => some (sign * Integer.digitsValue es, ds.drop es.length)
  match cs with
  | mark :: rest =>
    if mark = 'e' ∨ mark = 'E' then
      match rest with
      | '-' :: ds => digits (-1) ds
      | '+' :: ds => digits 1 ds
      | ds => digits 1 ds
    else none
  | [] => none

/-- The digits after a point, if there is a point, and what follows. -/
def readFraction (cs : List Char) : Option (List Char × List Char) :=
  match cs with
  | '.' :: rest => some (rest.takeWhile Integer.isDigit, rest.dropWhile Integer.isDigit)
  | _ => none

/-- The number at the start of a text without sign, and what follows it. -/
def readUnsigned (negative : Bool) (cs : List Char) : Option (Value × List Char) :=
  let before := cs.takeWhile Integer.isDigit
  let rest := cs.drop before.length
  let fraction := readFraction rest
  let (after, rest) := fraction.getD ([], rest)
  let exponent := readExponent rest
  let (e, rest) := exponent.getD (0, rest)
  let m := Integer.digitsValue (before ++ after)
  let n := if negative then -Int.ofNat m else m
  if before.isEmpty && after.isEmpty then none
  else if fraction.isNone && exponent.isNone && Integer.fits64 n then some (.integer n, rest)
  else some (.real (Double.ofDecimal negative m (e - after.length)), rest)

/-- The number at the start of a text, after blanks, and what follows it. -/
def read (cs : List Char) : Option (Value × List Char) :=
  match cs.dropWhile isBlank with
  | '-' :: rest => readUnsigned true rest
  | '+' :: rest => readUnsigned false rest
  | rest => readUnsigned false rest

/-- The number that a whole text stands for, if it stands for one. -/
def ofText? (s : String) : Option Value :=
  match read s.toList with
  | some (v, rest) => if rest.all isBlank then some v else none
  | none => none

/-- The integer that a real is, if it is one within 64 bits and none of the outermost two. -/
def toInteger? (x : Double) : Option Int :=
  x.toInt?.filter fun n => -0x8000000000000000 < n && n < 0x7FFFFFFFFFFFFFFF

/-! ## Writing -/

/-- The magnitude with 15 significant digits. -/
def rounded (x : Double) : Decimal :=
  let (num, den) := shift 2 x.sig 1 x.exp
  let k := Decimal.places num den - 15
  let (n, d) := shift 10 num den (-k)
  Decimal.strip 15 ⟨(2 * n + d) / (2 * d), k⟩

/-- One digit, a point, the other digits, and the exponent in two digits or more. -/
def scientific (digits : List Char) (point : Int) : List Char :=
  let e := point - 1
  let exponent := Nat.toDigits 10 e.natAbs
  Double.positional digits 1 ++ 'e' :: (if e < 0 then '-' else '+') ::
    List.replicate (2 - exponent.length) '0' ++ exponent

def realText (x : Double) : String :=
  let sign := if x.isNegative then ['-'] else []
  if x.isZero then "0.0"
  else if !x.isFinite then String.ofList (sign ++ "Inf".toList)
  else
    let d := rounded x
    let digits := Nat.toDigits 10 d.digits
    let point := digits.length + d.exponent
    String.ofList (sign ++
      (if -3 ≤ point ∧ point ≤ 15 then Double.positional digits point
        else scientific digits point))

/-- The text of a value, a blob excepted. -/
def text? : Value → Option String
  | .integer n => some (toString n)
  | .real x => some (realText x)
  | .text s => some s
  | _ => none

end NamedStores.Sqlite.Number
