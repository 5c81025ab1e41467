/-
Statements of SQL, as far as tables, their rows and counting queries need them. Names are
compared without regard to the case of ASCII letters.
-/
import NamedStores.Sqlite.Affinity

namespace NamedStores.Sqlite

inductive Operator where
  | or
  | and
  | equal
  | unequal
  | less
  | lessEqual
  | greater
  | greaterEqual
  | plus
  | minus
  | times
  deriving DecidableEq

inductive Expr where
  | literal (v : Value)
  /-- A parameter, counted from 1. -/
  | parameter (index : Nat)
  /-- A column, or a text if there is no such column and it may be one. -/
  | name (text : String) (mayBeText : Bool)
  | negate (e : Expr)
  | not (e : Expr)
  | binary (op : Operator) (left right : Expr)
  | countRows

inductive ResultColumn where
  | all
  /-- An expression with its name: the one given, or else its own text. -/
  | expr (e : Expr) (name : Option String) (written : String)

structure SortKey where
  expr : Expr
  isDescending : Bool

structure Select where
  columns : List ResultColumn
  source : Option String
  filter : Option Expr
  order : List SortKey

/-- A table that grows from rows of its own: those of the first select, then those of the second. -/
structure Recursion where
  name : String
  columns : List String
  first : Select
  next : Select

/-- Whether a column's values are unique, and whether the column is the row's own number. -/
inductive Uniqueness where
  | free
  | unique
  | primaryKey
  | rowNumber
  deriving DecidableEq

structure ColumnDefinition where
  name : String
  declared : String
  notNull : Bool
  uniqueness : Uniqueness

inductive Statement where
  /-- A new table, with its name as it is written. -/
  | createTable (name written : String) (columns : List ColumnDefinition)
  | dropTable (name : String)
  | insert (table : String) (columns : Option (List String)) (rows : List (List Expr))
  | update (table : String) (assignments : List (String × Expr)) (filter : Option Expr)
  | delete (table : String) (filter : Option Expr)
  | select (recursion : Option Recursion) (query : Select)

/-- Names that differ only in the case of ASCII letters are the same. -/
def sameName (a b : String) : Bool := Case.lowerAsciiText a = Case.lowerAsciiText b

namespace ColumnDefinition

def affinity (c : ColumnDefinition) : Affinity := Affinity.ofType c.declared

/-- The name of a declared type: of those with a name of their own, or by a word in it. -/
def typeName (declared : String) : String :=
  let lower := Case.lowerAsciiText declared
  let has (word : String) : Bool := Split.contains word.toList lower.toList
  if lower = "boolean" ∨ lower = "bool" then "BOOLEAN"
  else if lower = "date" then "DATE"
  else if lower = "time" then "TIME"
  else if lower = "datetime" ∨ lower = "timestamp" then "DATETIME"
  else if has "int" then "INTEGER"
  else if has "char" || has "clob" || has "text" then "TEXT"
  else if has "blob" then "BLOB"
  else if has "real" || has "floa" || has "doub" then "REAL"
  else "NULL"

end ColumnDefinition

end NamedStores.Sqlite
