/-
Queries. The rows of the source that pass the filter are sorted and shown through the result
columns; a query that counts its rows has one row, whatever it counts. A table that grows from
its own rows takes them one at a time, in the order in which they were added, and each is work
that takes time: `fuel` of them at most.
-/
import NamedStores.Sqlite.Table

namespace NamedStores.Sqlite

/-- A result: its columns with their declared types, and its rows. -/
structure Relation where
  columns : List (String × Option String)
  rows : List (List Value)

/-- Rows with the names by which expressions refer to their columns. -/
structure Source where
  fields : List Field
  isNumbered : Bool
  rows : List Row

namespace Source

/-- One row without columns, for queries that have no source. -/
def unit : Source := ⟨[], false, [⟨0, []⟩]⟩

def ofTable (t : Table) : Source := ⟨t.columns.map Table.field, true, t.rows⟩

/-- Computed rows, which have neither numbers nor types. -/
def computed (names : List String) (rows : List (List Value)) : Source :=
  ⟨names.map fun n => ⟨n, none, none⟩, false, rows.map (⟨0, ·⟩)⟩

def scope (src : Source) (params : List Value) : Scope :=
  ⟨src.fields, src.isNumbered, params, src.rows.length⟩

end Source

namespace Select

/-- The result columns without `*`, each with its name and its declared type. -/
def expand (s : Scope) (hasSource : Bool) (columns : List ResultColumn) :
    Except Problem (List (Expr × String × Option String)) := do
  let parts ← columns.mapM fun c =>
    match c with
    | .all =>
      if hasSource then
        .ok (s.fields.map fun f => (Expr.name f.name false, f.name, f.declared))
      else .error .noTables
    | .expr e name written => do
      e.check s true
      match e with
      | .name n mayBeText =>
        match s.referent? n mayBeText with
        | some (.column _ f) => .ok [(e, name.getD f.name, f.declared)]
        | some .rowNumber => .ok [(e, name.getD n, some "INTEGER")]
        | _ => .ok [(e, name.getD written, none)]
      | e => .ok [(e, name.getD written, none)]
  return parts.flatten

/-- Compares rows by keys, of which null is the least; equal rows keep their order. -/
def inOrder (s : Scope) : List SortKey → Row → Row → Bool
  | [], _, _ => true
  | k :: ks, a, b =>
    match (k.expr.eval s a).compare (k.expr.eval s b) with
    | .eq => inOrder s ks a b
    | .lt => !k.isDescending
    | .gt => k.isDescending

/-- Runs a query on the rows of its source. -/
def run (q : Select) (src : Source) (params : List Value) : Except Problem Relation := do
  let s := src.scope params
  let columns ← expand s q.source.isSome q.columns
  match q.filter with
  | some e => e.check s false
  | none => pure ()
  q.order.forM fun k => k.expr.check s false
  let rows := src.rows.filter (Expr.passes s q.filter)
  let shown :=
    if columns.any (·.1.counts) then
      let s := { s with count := rows.length }
      let row := (rows.getLast?).getD ⟨0, []⟩
      [columns.map fun c => c.1.eval s row]
    else
      let rows := if q.order.isEmpty then rows else rows.mergeSort (inOrder s q.order)
      rows.map fun row => columns.map fun c => c.1.eval s row
  return ⟨columns.map (·.2), shown⟩

end Select

namespace Recursion

/-- Grows a table from the rows waiting to be taken, `fuel` of them at most. -/
def grow (next : List Value → List (List Value)) :
    Nat → List (List Value) → List (List Value) → Option (List (List Value))
  | _, [], grown => some grown.reverse
  | 0, _ :: _, _ => none
  | fuel + 1, row :: waiting, grown => grow next fuel (waiting ++ next row) (row :: grown)

/-- The rows of the table, unless they are too many. The second select sees one row at a time. -/
def rows (r : Recursion) (params : List Value) (fuel : Nat) :
    Except Problem (Option (List (List Value))) := do
  let first ← r.first.run Source.unit params
  let _ ← r.next.run (Source.computed r.columns []) params
  let next (row : List Value) : List (List Value) :=
    match r.next.run (Source.computed r.columns [row]) params with
    | .ok result => result.rows
    | .error _ => []
  return grow next fuel first.rows []

end Recursion

end NamedStores.Sqlite
