/-
Positional parameters of a statement. In JSON they carry no tag: null, a boolean, a text, an
integer of 64 bits, any other number as a double, and a list of numbers below 256 for bytes.
The value that a parameter is written as reads as the parameter, a double that is not finite
excepted, for which JSON has no text.
-/
import NamedStores.Json.Shape
import NamedStores.Json.Writer

namespace NamedStores.Sql

inductive Param where
  | null
  | bool (b : Bool)
  | int (n : Int64)
  | float (x : Double)
  | text (s : String)
  | bytes (bs : Bytes)
  deriving DecidableEq

namespace Param

def octet? (v : Json) : Option UInt8 :=
  (v.unsigned? 8).map UInt8.ofNat

def ofJson? : Json → Option Param
  | .null => some .null
  | .bool b => some (.bool b)
  | .integer n => if Integer.fits64 n then some (.int (.ofInt n)) else some (.float (.ofInt n))
  | .float x => some (.float x)
  | .string s => some (.text s)
  | .array items => (items.mapM octet?).map .bytes
  | .object _ => none

def json : Param → Json
  | .null => .null
  | .bool b => .bool b
  | .int n => .integer n.toInt
  | .float x => Json.ofDouble x
  | .text s => .string s
  | .bytes bs => .array (bs.map fun b => .integer b.toNat)

def listShape : Json.Shape :=
  .sequence (.oneOf "QueryParam" fun v => (ofJson? v).isSome)

def ofItems (v : Json) : List Param :=
  (v.items?.getD []).filterMap ofJson?

/-- The parameters of a text that is a list of them, or what is wrong with it. -/
def listOfOctets (bs : Bytes) : Except String (List Param) :=
  (Json.ofOctetsAs listShape bs).map ofItems

def listJson (ps : List Param) : Json := .array (ps.map json)

end Param

end NamedStores.Sql
