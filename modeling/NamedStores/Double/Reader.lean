/-
Floating point numbers from text, correctly rounded: an optional sign, digits with at most one
point among, before or behind them, and an optional exponent. Infinity and NaN have names,
whose case does not matter.
-/
import NamedStores.Double.Basic
import NamedStores.Text.Case
import NamedStores.Text.Integer

namespace NamedStores.Double

/-- An exponent after its mark. -/
def exponent? (cs : List Char) : Option Int :=
  match cs with
  | '-' :: ds => (Integer.natural? ds).map fun n => -Int.ofNat n
  | '+' :: ds => (Integer.natural? ds).map Int.ofNat
  | ds => (Integer.natural? ds).map Int.ofNat

/-- A number without its sign. -/
def unsignedParts? (cs : List Char) : Option (Nat × Int) :=
  let before := cs.takeWhile Integer.isDigit
  let rest := cs.drop before.length
  let (after, rest) :=
    match rest with
    | '.' :: more => (more.takeWhile Integer.isDigit, more.dropWhile Integer.isDigit)
    | _ => ([], rest)
  let digits := before ++ after
  let value (e : Int) : Nat × Int := (Integer.digitsValue digits, e - after.length)
  if digits = [] then none
  else
    match rest with
    | [] => some (value 0)
    | 'e' :: more => (exponent? more).map value
    | 'E' :: more => (exponent? more).map value
    | _ => none

def splitSign (cs : List Char) : Bool × List Char :=
  match cs with
  | '-' :: rest => (true, rest)
  | '+' :: rest => (false, rest)
  | _ => (false, cs)

/-- The number of a text, rounded by `round`. -/
def ofChars? (round : Bool → Nat → Int → Double) (cs : List Char) : Option Double :=
  let (negative, rest) := splitSign cs
  let name := String.ofList (rest.map Case.lowerAscii)
  if name = "inf" ∨ name = "infinity" then some (infinity negative)
  else if name = "nan" then some nan
  else (unsignedParts? rest).map fun (m, e) => round negative m e

end NamedStores.Double
