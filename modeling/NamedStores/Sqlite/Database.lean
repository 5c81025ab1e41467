/-
A database: its tables, in the order in which they were created. A statement either yields its
rows and the database after it, or stops at a problem or out of time, with the database as it
was. Which problem is reported follows the order in which a statement is read: its table,
its columns, its expressions; then whether it may write at all; then its rows.
-/
import NamedStores.Sqlite.Query

namespace NamedStores.Sqlite

abbrev Database := List Table

/-- Why a statement stops. -/
inductive Halt where
  | problem (p : Problem)
  | outOfTime

/-- What a statement leaves behind: the database, its rows, and how many rows it changed if
changing them is what it does. -/
structure Effect where
  database : Database
  result : Relation
  changes : Option Nat

namespace Database

def table? (db : Database) (name : String) : Option Table :=
  db.find? fun t => sameName t.name name

def table (db : Database) (name : String) : Except Problem Table :=
  match db.table? name with
  | some t => .ok t
  | none => .error (.noTable name)

def put (db : Database) (t : Table) : Database :=
  db.map fun old => if old.name = t.name then t else old

def noRows : Relation := ⟨[], []⟩

/-- A write is refused where only reading is allowed. -/
def mayWrite (isReadOnly : Bool) : Except Problem Unit :=
  if isReadOnly then .error .readOnly else .ok ()

/-! ## Definitions -/

/-- The first column that bears the name of one before it. -/
def repeated? : List String → List String → Option String
  | _, [] => none
  | seen, n :: ns => if seen.any (sameName n) then some n else repeated? (n :: seen) ns

def isKey (c : ColumnDefinition) : Bool :=
  c.uniqueness = .primaryKey || c.uniqueness = .rowNumber

def createTable (db : Database) (isReadOnly : Bool) (name written : String)
    (columns : List ColumnDefinition) : Except Problem Database := do
  if (db.table? name).isSome then throw (.tableExists written)
  match repeated? [] (columns.map (·.name)) with
  | some n => throw (.repeatedColumn n)
  | none => pure ()
  if 1 < (columns.filter isKey).length then throw (.severalKeys name)
  mayWrite isReadOnly
  return db ++ [⟨name, columns, []⟩]

def dropTable (db : Database) (isReadOnly : Bool) (name : String) : Except Problem Database := do
  let t ← db.table name
  mayWrite isReadOnly
  return db.filter fun old => old.name ≠ t.name

/-! ## Rows -/

/-- The places of named columns, the row's number standing for the column that holds it. -/
def places (t : Table) (names : List String) : Except Problem (List Nat) :=
  names.mapM fun n =>
    match (t.scope []).column? n with
    | some (index, _) => .ok index
    | none => .error (.noColumnNamed t.name n)

/-- A row of a table from values for the columns at some places; the others are null. -/
def arrange (t : Table) (places : List Nat) (values : List Value) : List Value :=
  (List.range t.columns.length).map fun i =>
    (((places.zip values).find? (·.1 = i)).map (·.2)).getD .null

def insert (db : Database) (isReadOnly : Bool) (params : List Value) (name : String)
    (columns : Option (List String)) (rows : List (List Expr)) :
    Except Problem (Database × Nat) := do
  let width := (rows.head?.getD []).length
  if rows.any (·.length ≠ width) then throw .unevenValues
  let t ← db.table name
  let chosen ← (columns.map (places t)).getD (.ok (List.range t.columns.length))
  let s := Scope.nothing params
  rows.forM fun row => row.forM fun e => e.check s false
  if chosen.length ≠ width then
    throw (if columns.isSome then .valuesForColumns width chosen.length
      else .valueCount t.name t.columns.length width)
  mayWrite isReadOnly
  let values := rows.map fun row => arrange t chosen (row.map fun e => e.eval s ⟨0, []⟩)
  return (db.put (← t.insertAll values), rows.length)

/-- The columns assigned to are there, and their expressions and the filter make sense. -/
def checkUpdate (s : Scope) (assignments : List (String × Expr)) (filter : Option Expr) :
    Except Problem Unit := do
  assignments.forM fun (n, e) => do
    e.check s false
    if !s.hasTarget n then throw (.noColumn n)
  (filter.map (Expr.check s false)).getD (.ok ())

def update (db : Database) (isReadOnly : Bool) (params : List Value) (name : String)
    (assignments : List (String × Expr)) (filter : Option Expr) :
    Except Problem (Database × Nat) := do
  let t ← db.table name
  checkUpdate (t.scope params) assignments filter
  mayWrite isReadOnly
  let (t, count) ← t.update params assignments filter
  return (db.put t, count)

def delete (db : Database) (isReadOnly : Bool) (params : List Value) (name : String)
    (filter : Option Expr) : Except Problem (Database × Nat) := do
  let t ← db.table name
  (filter.map (Expr.check (t.scope params) false)).getD (.ok ())
  mayWrite isReadOnly
  let (t, count) := t.delete params filter
  return (db.put t, count)

/-! ## Statements -/

/-- The source of a query among the tables and the table that grew from its own rows, if any. -/
def source (db : Database) (grown : Option (String × Source)) (name : Option String) :
    Except Problem Source :=
  match name with
  | none => .ok Source.unit
  | some n =>
    match grown.filter fun g => sameName g.1 n with
    | some (_, src) => .ok src
    | none => (db.table n).map Source.ofTable

def select (db : Database) (params : List Value) (fuel : Nat) (recursion : Option Recursion)
    (q : Select) : Except Halt Relation := do
  let grown ←
    match recursion with
    | none => pure none
    | some r =>
      match r.rows params fuel with
      | .error p => throw (.problem p)
      | .ok none => throw .outOfTime
      | .ok (some rows) => pure (some (r.name, Source.computed r.columns rows))
  let src ← (db.source grown q.source).mapError .problem
  (q.run src params).mapError .problem

def run (db : Database) (isReadOnly : Bool) (params : List Value) (fuel : Nat)
    (s : Statement) : Except Halt Effect :=
  let defined (r : Except Problem Database) : Except Halt Effect :=
    (r.map fun db => (⟨db, noRows, none⟩ : Effect)).mapError .problem
  let changed (r : Except Problem (Database × Nat)) : Except Halt Effect :=
    (r.map fun (db, n) => (⟨db, noRows, some n⟩ : Effect)).mapError .problem
  match s with
  | .createTable name written columns => defined (db.createTable isReadOnly name written columns)
  | .dropTable name => defined (db.dropTable isReadOnly name)
  | .insert name columns rows => changed (db.insert isReadOnly params name columns rows)
  | .update name assignments filter =>
    changed (db.update isReadOnly params name assignments filter)
  | .delete name filter => changed (db.delete isReadOnly params name filter)
  | .select recursion q => (db.select params fuel recursion q).map fun r => ⟨db, r, none⟩

end Database

namespace Statement

/-- Whether changing rows is what a statement does. -/
def changesRows : Statement → Bool
  | .insert _ _ _ => true
  | .update _ _ _ => true
  | .delete _ _ => true
  | _ => false

end Statement

end NamedStores.Sqlite
