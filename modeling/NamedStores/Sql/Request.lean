/-
A query with its parameters and the bounds on its result. Between 1 and 10000 rows are given
back, 100 unless a limit is set.
-/
import NamedStores.Sql.Param

namespace NamedStores.Sql

structure Request where
  sql : String
  params : List Param
  rowLimit : Option Nat
  timeoutMs : Option Nat

namespace Request

def defaultRows : Nat := 100

def maxRows : Nat := 10000

def ofText (sql : String) : Request := ⟨sql, [], none, none⟩

def bind (r : Request) (p : Param) : Request := { r with params := r.params ++ [p] }

def withParams (r : Request) (ps : List Param) : Request := { r with params := ps }

def withLimit (r : Request) (rows : Nat) : Request := { r with rowLimit := some rows }

def withTimeout (r : Request) (ms : Nat) : Request := { r with timeoutMs := some ms }

/-- How many rows are given back at most. -/
def rows (r : Request) : Nat :=
  max 1 (min maxRows (r.rowLimit.getD defaultRows))

end Request

end NamedStores.Sql
