/-
The database products a handle can reach, told apart by the scheme of an address, whose case
does not matter.
-/
import NamedStores.Text.Case

namespace NamedStores.Sql

inductive Product where
  | postgreSQL
  | mySQL
  | sqlite
  deriving DecidableEq

namespace Product

/-- The name shown to people. -/
def displayName : Product → String
  | .postgreSQL => "PostgreSQL"
  | .mySQL => "MySQL"
  | .sqlite => "SQLite"

/-- The name used in data. -/
def label : Product → String
  | .postgreSQL => "postgresql"
  | .mySQL => "mysql"
  | .sqlite => "sqlite"

def all : List Product := [.postgreSQL, .mySQL, .sqlite]

/-- How the addresses of a product begin. -/
def beginnings : Product → List String
  | .postgreSQL => ["postgres://", "postgresql://"]
  | .mySQL => ["mysql://", "mariadb://"]
  | .sqlite => ["sqlite:"]

def ofAddress? (address : String) : Option Product :=
  let lower := Case.lower address.toList
  all.find? fun p => p.beginnings.any fun b => b.toList.isPrefixOf lower

def ofLabel? (label : String) : Option Product :=
  all.find? (·.label = label)

end Product

end NamedStores.Sql
