/-
Affinities of columns. The words in a column's type decide which class its values turn into on
being stored: numbers into texts, or texts into the numbers they stand for, and reals into the
integers they are or integers into reals. The same turns are made before a comparison, where
each side has the affinity of the column it is, if it is one.
-/
import NamedStores.Sqlite.Number
import NamedStores.Text.Case
import NamedStores.Text.Split

namespace NamedStores.Sqlite

inductive Affinity where
  | blob
  | text
  | numeric
  | integer
  | real
  deriving DecidableEq

namespace Affinity

/-- The affinity of a declared type, by the first words on this list that stand anywhere in it. -/
def ofType (declared : String) : Affinity :=
  let lower := Case.lowerAsciiText declared
  let has (word : String) : Bool := Split.contains word.toList lower.toList
  if has "int" then .integer
  else if has "char" || has "clob" || has "text" then .text
  else if has "blob" || declared.isEmpty then .blob
  else if has "real" || has "floa" || has "doub" then .real
  else .numeric

def isNumeric (a : Affinity) : Bool := a = .numeric || a = .integer || a = .real

/-- A text that is a number as that number, and a real that is an integer as that integer. -/
def toNumber (v : Value) : Value :=
  let whole (x : Double) : Value :=
    match Number.toInteger? x with
    | some n => .integer n
    | none => .real x
  match v with
  | .text s =>
    match Number.ofText? s with
    | some (.real x) => whole x
    | some n => n
    | none => v
  | .real x => whole x
  | v => v

def toText (v : Value) : Value :=
  match v with
  | .integer _ => .text ((Number.text? v).getD "")
  | .real _ => .text ((Number.text? v).getD "")
  | v => v

/-- A value as a column of this affinity stores it. -/
def store (a : Affinity) (v : Value) : Value :=
  match a with
  | .blob => v
  | .text => toText v
  | .numeric => toNumber v
  | .integer => toNumber v
  | .real =>
    match toNumber v with
    | .integer n => .real (Double.ofInt n)
    | v => v

/-- The affinity under which two sides are compared. -/
def common : Option Affinity → Option Affinity → Affinity
  | some a, some b => if a.isNumeric || b.isNumeric then .numeric else .blob
  | some a, none => a
  | none, some b => b
  | none, none => .blob

/-- One side of a comparison, of which `isText` tells whether either side is a text. -/
def compared (a : Affinity) (isText : Bool) (v : Value) : Value :=
  match v with
  | .text _ => if a.isNumeric then toNumber v else v
  | v => if a = .text && isText then toText v else v

/-- Compares two values; null compares with nothing. -/
def compare (a : Affinity) (v w : Value) : Option Ordering :=
  let isText := v.rank = 2 || w.rank = 2
  if v.isNull || w.isNull then none
  else some ((compared a isText v).compare (compared a isText w))

end Affinity

end NamedStores.Sqlite
