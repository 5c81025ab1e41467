/-
Values of SQLite. A value has a class of its own, whatever column it stands in: null, an
integer of 64 bits, a real, a text or a blob. In JSON a value keeps its class; the type of the
column only marks truth values among integers and documents among texts.
-/
import NamedStores.Json.Reader
import NamedStores.Sql.ColumnKind
import NamedStores.Sql.Param
import NamedStores.Text.Base64

namespace NamedStores.Sqlite

open Sql (ColumnKind Param)

inductive Value where
  | null
  | integer (n : Int)
  | real (x : Double)
  | text (s : String)
  | blob (bs : Bytes)
  deriving DecidableEq, Inhabited

namespace Value

def isNull (v : Value) : Bool := v = .null

def ofBool (b : Bool) : Value := .integer (if b then 1 else 0)

/-- Truth values are bound as 0 and 1. -/
def ofParam : Param → Value
  | .null => .null
  | .bool b => ofBool b
  | .int n => .integer n.toInt
  | .float x => if x.isNaN then .null else .real x
  | .text s => .text s
  | .bytes bs => .blob bs

def json (kind : ColumnKind) : Value → Json
  | .null => .null
  | .integer n => if kind = .boolean then .bool (n ≠ 0) else .integer n
  | .real x => Json.ofDouble x
  | .text s =>
    if kind = .json then
      match Json.ofText s with
      | .ok document => document
      | .error _ => .string s
    else .string s
  | .blob bs => .string (Base64.text bs)

/-! ## Order -/

/-- Numbers come first, then texts, then blobs. -/
def rank : Value → Nat
  | .null => 0
  | .integer _ => 1
  | .real _ => 1
  | .text _ => 2
  | .blob _ => 3

/-- A number as a fraction of whole numbers, and 0 for what is none. -/
def fraction : Value → Int × Nat
  | .integer n => (n, 1)
  | .real x => x.fraction
  | _ => (0, 1)

/-- Numbers are compared exactly, texts and blobs by their octets. -/
def compare (v w : Value) : Ordering :=
  match v, w with
  | .text s, .text t => Ord.compare s t
  | .blob a, .blob b => if a = b then .eq else if a < b then .lt else .gt
  | _, _ =>
    if v.rank = w.rank then
      let (n, d) := v.fraction
      let (m, e) := w.fraction
      Ord.compare (n * e) (m * d)
    else Ord.compare v.rank w.rank

end Value

end NamedStores.Sqlite
