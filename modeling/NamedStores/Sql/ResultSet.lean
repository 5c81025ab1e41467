/-
What a query gives back: its columns, its rows as objects by column name, and whether rows
were left out. Columns are those of the first row, so a result without rows has none.
-/
import NamedStores.Json.Basic

namespace NamedStores.Sql

structure Column where
  name : String
  typeName : String
  deriving DecidableEq

/-- A row as fetched: the values in the order of the columns. -/
abbrev Row := List (Column × Json)

structure ResultSet where
  columns : List Column
  rows : List Record
  truncated : Bool
  milliseconds : Nat

/-- What a statement without rows gives back. -/
structure Execution where
  rowsAffected : Nat
  milliseconds : Nat

namespace ResultSet

def rowCount (r : ResultSet) : Nat := r.rows.length

def isEmpty (r : ResultSet) : Bool := r.rows.isEmpty

def columnJson (c : Column) : Json :=
  Json.fields [("name", .string c.name), ("type_name", .string c.typeName)]

def json (r : ResultSet) : Json :=
  Json.fields [
    ("columns", .array (r.columns.map columnJson)),
    ("rows", .array (r.rows.map .object)),
    ("truncated", .bool r.truncated),
    ("execution_time_ms", .integer r.milliseconds)]

/-- The values of a row by the names of its columns; of two columns with one name the last counts. -/
def record (row : Row) : Record :=
  SortedMap.ofList (row.map fun (c, v) => (c.name, v))

/-- The items of a stream up to one past a limit, or the first error among them. -/
def fetch {ε ρ : Type} : Nat → List (Except ε ρ) → Except ε (List ρ)
  | 0, _ => .ok []
  | _ + 1, [] => .ok []
  | _ + 1, .error e :: _ => .error e
  | n + 1, .ok row :: rest => (fetch n rest).map (row :: ·)

/-- The result of the rows fetched, of which those past the limit only show that there are more. -/
def collect (limit : Nat) (rows : List Row) (milliseconds : Nat) : ResultSet :=
  { columns := (rows.head?.getD []).map (·.1)
    rows := (rows.take limit).map record
    truncated := limit < rows.length
    milliseconds := milliseconds }

/-- The result of a stream of rows: no more than one row past the limit is looked at. -/
def ofStream {ε : Type} (limit : Nat) (items : List (Except ε Row)) (milliseconds : Nat) :
    Except ε ResultSet :=
  (fetch (limit + 1) items).map (collect limit · milliseconds)

end ResultSet

namespace Execution

def json (e : Execution) : Json :=
  Json.fields [
    ("rows_affected", .integer e.rowsAffected),
    ("execution_time_ms", .integer e.milliseconds)]

end Execution

end NamedStores.Sql
