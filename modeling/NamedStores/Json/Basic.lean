/-
JSON values. An integer is kept exactly, any other number as a double; an object is a map
sorted by key, so two texts that differ only in the order of their keys read as one value.
-/
import NamedStores.Double.Basic
import NamedStores.SortedMap
import NamedStores.Text.Integer

namespace NamedStores

inductive Json where
  | null
  | bool (b : Bool)
  | integer (n : Int)
  | float (x : Double)
  | string (s : String)
  | array (items : List Json)
  | object (entries : List (String × Json))
  deriving Inhabited

/-- The entries of an object, by key. -/
abbrev Record := SortedMap String Json

namespace Json

/-! ## Views -/

def record? : Json → Option Record
  | .object entries => some entries
  | _ => none

def string? : Json → Option String
  | .string s => some s
  | _ => none

def bool? : Json → Option Bool
  | .bool b => some b
  | _ => none

def items? : Json → Option (List Json)
  | .array items => some items
  | _ => none

/-- An integer that 64 bits hold with its sign. -/
def signed? : Json → Option Int
  | .integer n => if Integer.fits64 n then some n else none
  | _ => none

/-- An integer from 0 on that fits so many bits. -/
def unsigned? (bits : Nat) : Json → Option Nat
  | .integer (.ofNat n) => if n < Nat.pow 2 bits then some n else none
  | _ => none

/-- A finite double, or null for the others, which JSON cannot hold. -/
def ofDouble (x : Double) : Json :=
  if x.isFinite then .float x else .null

def ofOption : Option Json → Json
  | some v => v
  | none => .null

def ofText? (s : Option String) : Json :=
  ofOption (s.map .string)

/-- An object from its fields, in any order. -/
def fields (pairs : List (String × Json)) : Json :=
  .object (SortedMap.ofList pairs)

end Json

end NamedStores
