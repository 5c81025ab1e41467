/-
Tables. Rows are kept in ascending order of their numbers, no two of which are the same; a
column that is the row's number holds it as its value too. Storing a row settles its number,
turns its values into the classes of their columns, and checks the constraints: no null where
there must be none, then no other row of that number, then no equal value in another row of a
column whose values are unique, the last such column being looked at first. A change that fails
leaves no trace.
-/
import NamedStores.Sqlite.Evaluation

namespace NamedStores.Sqlite

structure Table where
  name : String
  columns : List ColumnDefinition
  rows : List Row

namespace Table

def field (c : ColumnDefinition) : Field := ⟨c.name, some c.affinity, some c.declared⟩

def scope (t : Table) (params : List Value) : Scope :=
  ⟨t.columns.map field, true, params, t.rows.length⟩

/-! ## Row numbers -/

def hasNumber (t : Table) (n : Int) : Bool := t.rows.any (·.number = n)

/-- The number after the last; beyond the greatest of 64 bits, the least that is free. -/
def nextNumber (t : Table) : Int :=
  match t.rows.getLast? with
  | none => 1
  | some last =>
    if last.number < 0x7FFFFFFFFFFFFFFF then last.number + 1
    else
      (((List.range (t.rows.length + 1)).map fun (i : Nat) => Int.ofNat i + 1).find?
        fun n => !t.hasNumber n).getD 1

/-- The integer that a value is as a row number. -/
def numberOf? (v : Value) : Except Problem Int :=
  match Affinity.toNumber v with
  | .integer n => .ok n
  | _ => .error .mismatch

/-- Puts a row in its place. -/
def place : List Row → Row → List Row
  | [], r => [r]
  | r' :: rs, r => if r.number < r'.number then r :: r' :: rs else r' :: place rs r

def remove (t : Table) (n : Int) : Table := { t with rows := t.rows.filter (·.number ≠ n) }

/-! ## Constraints -/

/-- The values of a row as their columns store them. -/
def stored (t : Table) (number : Int) (values : List Value) : List Value :=
  t.columns.zipWith (fun c v =>
    if c.uniqueness = .rowNumber then .integer number else c.affinity.store v) values

/-- Two values that an index takes for one. -/
def sameKey (v w : Value) : Bool := !v.isNull && !w.isNull && (v.compare w).isEq

/-- Whether a row has a value, and not null, at the place of a column. -/
def holds (index : Nat) (v : Value) (r : Row) : Bool :=
  sameKey v ((r.values[index]?).getD .null)

/-- The first column that must not be null and is. -/
def nullFault? (t : Table) (values : List Value) : Option Problem :=
  ((t.columns.zip values).find? fun (c, v) =>
    c.notNull && c.uniqueness ≠ .rowNumber && v.isNull).map fun (c, _) => .notNull t.name c.name

/-- The number, or else the last of the unique columns, that a row shares with one in the table. -/
def keyFault? (t : Table) (number : Int) (values : List Value) : Option Problem :=
  let numberName := ((t.columns.find? (·.uniqueness = .rowNumber)).map (·.name)).getD "rowid"
  if t.hasNumber number then some (.notUnique t.name numberName true)
  else
    ((t.columns.zip values).zipIdx.reverse.find? fun ((c, v), index) =>
      (c.uniqueness = .unique || c.uniqueness = .primaryKey) && t.rows.any (holds index v)).map
      fun ((c, _), _) => .notUnique t.name c.name (c.uniqueness = .primaryKey)

/-- Adds a row with a number and with values as given. -/
def add (t : Table) (number : Int) (values : List Value) : Except Problem Table :=
  match t.nullFault? values with
  | some p => .error p
  | none =>
    let values := t.stored number values
    match t.keyFault? number values with
    | some p => .error p
    | none => .ok { t with rows := place t.rows ⟨number, values⟩ }

/-! ## Changes -/

/-- The number of a new row: that in its own column, unless it is null or there is no such column. -/
def newNumber (t : Table) (values : List Value) : Except Problem Int :=
  match (t.columns.zip values).find? fun (c, _) => c.uniqueness = .rowNumber with
  | some (_, v) => if v.isNull then .ok t.nextNumber else numberOf? v
  | none => .ok t.nextNumber

def insert (t : Table) (values : List Value) : Except Problem Table := do
  t.add (← t.newNumber values) values

def insertAll (t : Table) (rows : List (List Value)) : Except Problem Table :=
  rows.foldlM insert t

/-- The new number of a row and its values after assignments to columns, or to the number. -/
def assign (t : Table) (s : Scope) (row : Row) (assignments : List (String × Expr)) :
    Except Problem (Int × List Value) :=
  assignments.foldlM (fun (number, values) (n, e) => do
    let v := e.eval s row
    match s.column? n with
    | some (index, _) =>
      let isNumber := (t.columns[index]?).any (·.uniqueness = .rowNumber)
      let number ← if isNumber then numberOf? v else .ok number
      return (number, values.set index v)
    | none => return (← numberOf? v, values)) (row.number, row.values)

/-- Changes one row, which makes way for itself. -/
def updateRow (s : Scope) (assignments : List (String × Expr)) (t : Table) (row : Row) :
    Except Problem Table := do
  let (number, values) ← t.assign s row assignments
  (t.remove row.number).add number values

/-- Changes the rows that pass a filter, and says how many they are. -/
def update (t : Table) (params : List Value) (assignments : List (String × Expr))
    (filter : Option Expr) : Except Problem (Table × Nat) := do
  let s := t.scope params
  let rows := t.rows.filter (Expr.passes s filter)
  return (← rows.foldlM (updateRow s assignments) t, rows.length)

/-- Removes the rows that pass a filter, and says how many they are. -/
def delete (t : Table) (params : List Value) (filter : Option Expr) : Table × Nat :=
  let passes := Expr.passes (t.scope params) filter
  let rows := t.rows.filter (!passes ·)
  ({ t with rows := rows }, t.rows.length - rows.length)

end Table

end NamedStores.Sqlite
