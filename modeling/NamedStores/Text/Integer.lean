/-
Whole numbers of 64 bits, and whole numbers as text: an optional sign, then decimal digits,
leading zeros allowed.
-/
namespace NamedStores.Integer

/-- Whether 64 bits hold a number and its sign. -/
def fits64 (n : Int) : Bool := -0x8000000000000000 ≤ n && n < 0x8000000000000000

def isDigit (c : Char) : Bool := '0' ≤ c && c ≤ '9'

def digitsValue (ds : List Char) : Nat :=
  ds.foldl (fun n c => n * 10 + (c.toNat - 0x30)) 0

/-- At least one digit and nothing else. -/
def natural? (cs : List Char) : Option Nat :=
  if cs ≠ [] ∧ cs.all isDigit then some (digitsValue cs) else none

/-- A signed number between two bounds, the upper one left out. -/
def within? (low high : Int) (cs : List Char) : Option Int :=
  let signed : Option Int :=
    match cs with
    | '-' :: ds => (natural? ds).map fun n => -Int.ofNat n
    | '+' :: ds => (natural? ds).map Int.ofNat
    | ds => (natural? ds).map Int.ofNat
  signed.filter fun n => low ≤ n && n < high

def signed64? (cs : List Char) : Option Int :=
  within? (-0x8000000000000000) 0x8000000000000000 cs

end NamedStores.Integer
