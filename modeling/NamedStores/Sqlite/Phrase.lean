/-
Statements as text. Names are quoted, and values are parameters to be bound in the order in
which they stand.
-/
import NamedStores.Sqlite.Statement

namespace NamedStores.Sqlite.Phrase

/-- A name in double quotes; a quote inside is written twice. -/
def quoted (name : String) : String :=
  String.ofList (('"' :: name.toList.flatMap fun c => if c = '"' then ['"', '"'] else [c]) ++ ['"'])

def commas (parts : List String) : String := ", ".intercalate parts

def names (ns : List String) : String := commas (ns.map quoted)

def parameters (count : Nat) : String := commas (List.replicate count "?")

/-- The filter that a column equals a parameter, if there is a column. -/
def filter : Option String → String
  | some column => " WHERE " ++ quoted column ++ " = ?"
  | none => ""

/-- Columns are given with their types, which may be empty. -/
def createTable (table : String) (columns : List (String × String)) : String :=
  let column (c : String × String) : String :=
    if c.2.isEmpty then quoted c.1 else quoted c.1 ++ " " ++ c.2
  "CREATE TABLE " ++ quoted table ++ " (" ++ commas (columns.map column) ++ ")"

def dropTable (table : String) : String := "DROP TABLE " ++ quoted table

/-- One statement for rows of the given widths. -/
def insert (table : String) (columns : List String) (widths : List Nat) : String :=
  let list := if columns.isEmpty then "" else " (" ++ names columns ++ ")"
  let row (width : Nat) : String := "(" ++ parameters width ++ ")"
  "INSERT INTO " ++ quoted table ++ list ++ " VALUES " ++ commas (widths.map row)

def update (table column : String) (filtered : Option String) : String :=
  "UPDATE " ++ quoted table ++ " SET " ++ quoted column ++ " = ?" ++ filter filtered

def delete (table : String) (filtered : Option String) : String :=
  "DELETE FROM " ++ quoted table ++ filter filtered

/-- All columns, or the named ones, of the rows in the order of their numbers. -/
def select (table : String) (columns : List String) (filtered : Option String) : String :=
  let list := if columns.isEmpty then "*" else names columns
  "SELECT " ++ list ++ " FROM " ++ quoted table ++ filter filtered ++ " ORDER BY rowid"

def values (ns : List String) : String :=
  "SELECT " ++ commas (ns.map fun n => "? AS " ++ quoted n)

end NamedStores.Sqlite.Phrase
