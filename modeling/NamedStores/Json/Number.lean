/-
Numbers in JSON text. An integer that fits 64 bits stays one. Any other number is gathered
into a significand of 64 bits, digits that no longer fit only moving the point, and then
scaled by a power of ten in one multiplication or division of doubles; a power below
`10 ^ -308` is reached in steps. A result beyond the doubles is out of range.
-/
import NamedStores.Json.Basic
import NamedStores.Json.Fault

namespace NamedStores.Json

abbrev Step (α : Type) := Except Fault (α × Bytes)

/-- An octet as the character of its number, so that ASCII can be told by its characters. -/
def asChar (b : UInt8) : Char := Char.ofNat b.toNat

def isDigit (b : UInt8) : Bool := 0x30 ≤ b && b ≤ 0x39

def digit (b : UInt8) : Nat := b.toNat - 0x30

/-- A fault seen by looking at the next octet. -/
def lookFault {α : Type} (cause : Cause) (rest : Bytes) : Except Fault α :=
  .error ⟨cause, rest, true⟩

/-- A fault found after consuming all that is not left. -/
def hereFault {α : Type} (cause : Cause) (rest : Bytes) : Except Fault α :=
  .error ⟨cause, rest, false⟩

namespace Number

/-! ## The value of the digits -/

def fits (sig : Nat) (d : Nat) : Bool := sig * 10 + d < 0x10000000000000000

/-- Digits before the point: the significand, and how many digits no longer fitted. -/
def gatherWhole : Nat → List Nat → Nat × Nat
  | sig, [] => (sig, 0)
  | sig, d :: ds => if fits sig d then gatherWhole (sig * 10 + d) ds else (sig, ds.length + 1)

/-- Digits after the point: the significand, and how many digits it took up. -/
def gatherPart : Nat → List Nat → Nat × Nat
  | sig, [] => (sig, 0)
  | sig, d :: ds =>
    if fits sig d then
      let (sig, taken) := gatherPart (sig * 10 + d) ds
      (sig, taken + 1)
    else (sig, 0)

def powerOfTen (n : Nat) : Double := .ofNat (Nat.pow 10 n)

/-- `x * 10 ^ e`, or `none` beyond the doubles. -/
def scale : Nat → Double → Int → Option Double
  | 0, _, _ => some (Double.zero false)
  | fuel + 1, x, e =>
    if e.natAbs ≤ 308 then
      if 0 ≤ e then
        let y := x.mul (powerOfTen e.toNat)
        if y.isFinite then some y else none
      else some (x.div (powerOfTen e.natAbs))
    else if x.isZero then some x
    else if 0 ≤ e then none
    else scale fuel (x.div (powerOfTen 308)) (e + 308)

/-- The double of a significand and a power of ten, signed. -/
def float (negative : Bool) (sig : Nat) (e : Int) (rest : Bytes) : Step Json :=
  match scale 4 (.ofNat sig) e with
  | some x => .ok (.float (if negative then x.negate else x), rest)
  | none => hereFault .numberOutOfRange rest

def integer (negative : Bool) (sig : Nat) : Json :=
  if negative then
    if sig = 0 ∨ 0x8000000000000000 < sig then .float (Double.ofNat sig).negate else .integer (-sig)
  else .integer sig

/-! ## Reading -/

def spanDigits (bs : Bytes) : List Nat × Bytes :=
  ((bs.takeWhile isDigit).map digit, bs.dropWhile isDigit)

/-- The digits of an exponent, or the place where they leave 31 bits. -/
def exponentDigits : Nat → Bytes → Except Bytes (Nat × Bytes)
  | e, [] => .ok (e, [])
  | e, b :: bs =>
    if isDigit b then
      if 0x80000000 ≤ e * 10 + digit b then .error bs else exponentDigits (e * 10 + digit b) bs
    else .ok (e, b :: bs)

/-- What follows the `e` of an exponent. -/
def exponent (negative : Bool) (sig : Nat) (start : Int) (bs : Bytes) : Step Json :=
  let (down, bs) :=
    match bs with
    | b :: rest => if asChar b = '+' then (false, rest) else if asChar b = '-' then (true, rest)
      else (false, bs)
    | [] => (false, bs)
  match bs with
  | [] => hereFault .endOfValue []
  | b :: rest =>
    if !isDigit b then hereFault .invalidNumber rest
    else
      match exponentDigits (digit b) rest with
      | .ok (e, rest) => float negative sig (if down then start - e else start + e) rest
      | .error rest =>
        if sig ≠ 0 ∧ !down then hereFault .numberOutOfRange rest
        else .ok (.float (Double.zero negative), (spanDigits rest).2)

def isExponentMark (b : UInt8) : Bool := asChar b = 'e' || asChar b = 'E'

/-- What follows the point. -/
def part (negative : Bool) (sig dropped : Nat) (bs : Bytes) : Step Json :=
  match spanDigits bs with
  | ([], []) => lookFault .endOfValue []
  | ([], rest) => lookFault .invalidNumber rest
  | (ds, rest) =>
    let (sig, taken) := gatherPart sig ds
    let e := Int.ofNat dropped - taken
    match rest with
    | b :: more => if isExponentMark b then exponent negative sig e more
      else float negative sig e rest
    | [] => float negative sig e rest

/-- What follows the digits before the point. -/
def afterWhole (negative : Bool) (sig dropped : Nat) (bs : Bytes) : Step Json :=
  let plain := if dropped = 0 then .ok (integer negative sig, bs) else float negative sig dropped bs
  match bs with
  | b :: rest =>
    if asChar b = '.' then part negative sig dropped rest
    else if isExponentMark b then exponent negative sig dropped rest
    else plain
  | [] => plain

/-- A number after its sign. -/
def read (negative : Bool) : Bytes → Step Json
  | [] => hereFault .endOfValue []
  | b :: rest =>
    if asChar b = '0' then
      match rest with
      | c :: _ => if isDigit c then lookFault .invalidNumber rest else afterWhole negative 0 0 rest
      | [] => afterWhole negative 0 0 rest
    else if isDigit b then
      let (ds, rest) := spanDigits rest
      let (sig, dropped) := gatherWhole (digit b) ds
      afterWhole negative sig dropped rest
    else hereFault .invalidNumber rest

/-! ## Passing over -/

/-- Passes over an exponent after its `e`. -/
def passExponent (bs : Bytes) : Except Fault Bytes :=
  let bs :=
    match bs with
    | b :: rest => if asChar b = '+' || asChar b = '-' then rest else bs
    | [] => bs
  match bs with
  | [] => hereFault .invalidNumber []
  | b :: rest => if isDigit b then .ok (spanDigits rest).2 else hereFault .invalidNumber rest

def passAfterPart (bs : Bytes) : Except Fault Bytes :=
  match bs with
  | b :: rest => if isExponentMark b then passExponent rest else .ok bs
  | [] => .ok bs

/-- Passes over a number after its sign, without its value. -/
def pass : Bytes → Except Fault Bytes
  | [] => hereFault .invalidNumber []
  | b :: rest =>
    if !isDigit b then hereFault .invalidNumber rest
    else if asChar b = '0' && (rest.head?.any isDigit) then lookFault .invalidNumber rest
    else
      let rest := (spanDigits rest).2
      match rest with
      | c :: more =>
        if asChar c = '.' then
          match spanDigits more with
          | ([], more) => lookFault .invalidNumber more
          | (_, more) => passAfterPart more
        else passAfterPart rest
      | [] => .ok []

end Number

end NamedStores.Json
