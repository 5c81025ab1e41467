/-
The shortest text of a finite number: the fewest decimal digits from which the number can be
told from every other one, the nearest such decimal if several have that many digits, and
the even one of two equally near. A decimal stands for the number when it lies between the
midpoints to its neighbours, the midpoints included when the significand is even.
-/
import NamedStores.Double.Basic

namespace NamedStores

/-- `digits * 10 ^ exponent`. -/
structure Decimal where
  digits : Nat
  exponent : Int
  deriving DecidableEq

namespace Decimal

/-- Drops zeros at the end, `fuel` of them at most. -/
def strip : Nat → Decimal → Decimal
  | 0, d => d
  | fuel + 1, d =>
    if d.digits ≠ 0 ∧ d.digits % 10 = 0 then strip fuel ⟨d.digits / 10, d.exponent + 1⟩ else d

/-- The number of digits before the point of `num / den`, none or fewer below one tenth. -/
def places (num den : Nat) : Int :=
  let p : Int := (Nat.toDigits 10 num).length - Int.ofNat (Nat.toDigits 10 den).length
  let (n, d) := shift 10 num den (-p)
  if n < d then p else p + 1

/-- `num / den` rounded to so many significant digits, the even one of two. -/
def ofRatio (count : Nat) (num den : Nat) : Decimal :=
  let k := places num den - count
  let (n, d) := shift 10 num den (-k)
  strip count ⟨roundDiv n d, k⟩

end Decimal

namespace Double

/-- The midpoints below and above the number, in units of `2 ^ (exp - 2)`. -/
def midpoints (x : Double) : Nat × Nat :=
  let v := 4 * x.sig
  (if x.sig = leastNormal ∧ -1074 < x.exp then v - 1 else v - 2, v + 2)

/-- Whether `c * 10 ^ k` lies between the midpoints. -/
def standsFor (x : Double) (c : Nat) (k : Int) : Bool :=
  let (low, high) := x.midpoints
  let (unit, part) := shift 2 1 1 (x.exp - 2)
  let (n, d) := shift 10 c 1 k
  let decimal := n * part
  let low := low * unit * d
  let high := high * unit * d
  if x.sig % 2 = 0 then low ≤ decimal && decimal ≤ high else low < decimal && decimal < high

/-- The one of the two neighbours on the grid `10 ^ k` that stands for the number and is nearest. -/
def nearest? (x : Double) (num den : Nat) (k : Int) : Option Decimal :=
  let (n, d) := shift 10 num den (-k)
  let c := roundDiv n d
  let other := if c = n / d then c + 1 else c - 1
  if x.standsFor c k then some ⟨c, k⟩
  else if x.standsFor other k then some ⟨other, k⟩
  else none

/-- Tries one digit, then two, and so on. -/
def search (x : Double) (num den : Nat) (places : Int) : Nat → Nat → Decimal
  | 0, count => Decimal.ofRatio count num den
  | fuel + 1, count =>
    match x.nearest? num den (places - count) with
    | some d => d.strip 18
    | none => search x num den places fuel (count + 1)

/-- The shortest decimal of the magnitude of a number that is finite and not zero. -/
def shortest (x : Double) : Decimal :=
  let (num, den) := shift 2 x.sig 1 x.exp
  x.search num den (Decimal.places num den) 17 1

/-! ## Text -/

def zeros (n : Int) : List Char :=
  List.replicate n.toNat '0'

/-- Digits with the point after the first `point` of them, and at least one digit on each side. -/
def positional (digits : List Char) (point : Int) : List Char :=
  if point ≤ 0 then '0' :: '.' :: zeros (-point) ++ digits
  else if digits.length ≤ point then digits ++ zeros (point - digits.length) ++ ['.', '0']
  else digits.take point.toNat ++ '.' :: digits.drop point.toNat

/-- One digit, the others after a point, and the exponent with its sign. -/
def scientific (digits : List Char) (point : Int) : List Char :=
  let mantissa :=
    match digits with
    | first :: more@(_ :: _) => first :: '.' :: more
    | short => short
  let e := point - 1
  mantissa ++ 'e' :: (if e < 0 then '-' else '+') :: Nat.toDigits 10 e.natAbs

/-- A finite number: positional from `1e-5` on and below `1e16`, else with an exponent. -/
def text (x : Double) : String :=
  let sign := if x.isNegative then ['-'] else []
  if x.isZero then String.ofList (sign ++ ['0', '.', '0'])
  else
    let d := x.shortest
    let digits := Nat.toDigits 10 d.digits
    let point := digits.length + d.exponent
    String.ofList (sign ++
      (if -4 ≤ point ∧ point ≤ 16 then positional digits point else scientific digits point))

end Double

end NamedStores
