/-
Floating point numbers of 64 bits, held as their bits. A finite one is `sig * 2 ^ exp` with
its sign. Every operation computes its exact quotient or product in whole numbers and rounds
once, to the nearest number of the grid and to an even significand on a tie: a quotient
`num / den` becomes a whole number of units `2 ^ e`, where `e` is the least exponent at which
the significand has at most 53 bits.
-/
namespace NamedStores

structure Double where
  bits : UInt64
  deriving DecidableEq, Inhabited

/-! ## Rounding -/

/-- The whole number nearest to `num / den`, the even one of two. -/
def roundDiv (num den : Nat) : Nat :=
  let q := num / den
  let twice := 2 * (num % den)
  if twice < den then q
  else if den < twice then q + 1
  else q + q % 2

/-- The fraction `num / den` times `base ^ e`. -/
def shift (base num den : Nat) (e : Int) : Nat × Nat :=
  if 0 ≤ e then (num * Nat.pow base e.toNat, den) else (num, den * Nat.pow base (-e).toNat)

/-- How many bits a significand has, and the least exponent. -/
structure Grid where
  precision : Nat
  least : Int

namespace Grid

def double : Grid := ⟨53, -1074⟩

def single : Grid := ⟨24, -149⟩

/-- The significand and exponent nearest to `num / den`. -/
def round (g : Grid) (num den : Nat) : Nat × Int :=
  let e := max (Int.ofNat (Nat.log2 num) - Nat.log2 den - g.precision) g.least
  let (n, d) := shift 2 num den (-e)
  let e := if n / d < Nat.pow 2 g.precision then e else e + 1
  let (n, d) := shift 2 num den (-e)
  (roundDiv n d, e)

end Grid

namespace Double

/-! ## Fields -/

def word (x : Double) : Nat := x.bits.toNat

/-- The sign as a bit of the word: `2 ^ 63`. -/
def signBit : Nat := 0x8000000000000000

/-- The magnitude of the least number that is not subnormal: `2 ^ 52`. -/
def leastNormal : Nat := 0x10000000000000

def isNegative (x : Double) : Bool := signBit ≤ x.word

/-- The bits without the sign. -/
def magnitude (x : Double) : Nat := x.word % signBit

/-- The magnitude of the infinities; those of NaNs lie above it. -/
def infiniteMagnitude : Nat := 0x7FF * leastNormal

def isFinite (x : Double) : Bool := x.magnitude < infiniteMagnitude

def isZero (x : Double) : Bool := x.magnitude == 0

def isNaN (x : Double) : Bool := infiniteMagnitude < x.magnitude

def sig (x : Double) : Nat :=
  if x.magnitude < leastNormal then x.magnitude
  else x.magnitude % leastNormal + leastNormal

def exp (x : Double) : Int :=
  if x.magnitude < leastNormal then -1074 else Int.ofNat (x.magnitude / leastNormal) - 1075

def ofMagnitude (negative : Bool) (m : Nat) : Double :=
  ⟨.ofNat ((if negative then signBit else 0) + m)⟩

def zero (negative : Bool) : Double := ofMagnitude negative 0

def infinity (negative : Bool) : Double := ofMagnitude negative infiniteMagnitude

def nan : Double := ofMagnitude false (infiniteMagnitude + leastNormal / 2)

def negate (x : Double) : Double := ofMagnitude (!x.isNegative) x.magnitude

/-! ## Numbers as doubles -/

/-- The double nearest to `num / den`; beyond the largest, an infinity. -/
def ofRatio (negative : Bool) (num den : Nat) : Double :=
  if num = 0 then zero negative
  else
    let (q, e) := Grid.double.round num den
    ofMagnitude negative (min ((e + 1074).toNat * leastNormal + q) infiniteMagnitude)

/-- `num / den * 2 ^ e`, rounded. -/
def ofScaled (negative : Bool) (num den : Nat) (e : Int) : Double :=
  let (n, d) := shift 2 num den e
  ofRatio negative n d

def ofNat (n : Nat) : Double := ofRatio false n 1

def ofInt (n : Int) : Double := ofRatio (n < 0) n.natAbs 1

/-- `m * 10 ^ e`, rounded. An exponent that decides the answer alone is not expanded. -/
def ofDecimal (negative : Bool) (m : Nat) (e : Int) : Double :=
  let length : Int := (Nat.toDigits 10 m).length
  if m = 0 then zero negative
  else if 310 < length + e then infinity negative
  else if length + e < -330 then zero negative
  else
    let (n, d) := shift 10 m 1 e
    ofRatio negative n d

/-- The number that 32 bits stand for in single precision. -/
def ofSingleBits (bits : Nat) : Double :=
  let negative : Bool := 0x80000000 ≤ bits
  let m := bits % 0x80000000
  if m < 0x800000 then ofScaled negative m 1 (-149)
  else if m < 0x7F800000 then
    ofScaled negative (m % 0x800000 + 0x800000) 1 (Int.ofNat (m / 0x800000) - 150)
  else if m = 0x7F800000 then infinity negative
  else nan

/-- `m * 10 ^ e`, rounded to single precision. -/
def ofDecimalSingle (negative : Bool) (m : Nat) (e : Int) : Double :=
  let length : Int := (Nat.toDigits 10 m).length
  if m = 0 then zero negative
  else if 50 < length + e then infinity negative
  else if length + e < -60 then zero negative
  else
    let (n, d) := shift 10 m 1 e
    let (q, k) := Grid.single.round n d
    if Nat.pow 2 128 ≤ q * Nat.pow 2 k.toNat then infinity negative else ofScaled negative q 1 k

/-! ## Arithmetic on finite numbers -/

def mul (x y : Double) : Double :=
  ofScaled (x.isNegative != y.isNegative) (x.sig * y.sig) 1 (x.exp + y.exp)

/-- The quotient by a number that is not zero. -/
def div (x y : Double) : Double :=
  ofScaled (x.isNegative != y.isNegative) x.sig y.sig (x.exp - y.exp)

/-- A finite number as a fraction of whole numbers. -/
def fraction (x : Double) : Int × Nat :=
  let (n, d) := shift 2 x.sig 1 x.exp
  (if x.isNegative then -Int.ofNat n else n, d)

/-- The whole number that a finite number is, if it is one. -/
def toInt? (x : Double) : Option Int :=
  let (n, d) := x.fraction
  if x.isFinite && n % d == 0 then some (n / d) else none

end Double

end NamedStores
