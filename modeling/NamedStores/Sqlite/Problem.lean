/-
What SQLite refuses: a text that is no statement, a statement that does not fit the tables, and
a change that would break a constraint. Only the last comes up while a statement runs; it
leaves the tables as they were.
-/
import NamedStores.Sql.DriverError

namespace NamedStores.Sqlite

inductive Problem where
  | syntaxNear (token : String)
  | incomplete
  | unrecognized (token : String)
  | noTable (name : String)
  | noColumn (name : String)
  | noTables
  | tableExists (written : String)
  | repeatedColumn (name : String)
  | severalKeys (table : String)
  | unevenValues
  | valueCount (table : String) (columns values : Nat)
  | valuesForColumns (values columns : Nat)
  | noColumnNamed (table name : String)
  | noRowCount
  | readOnly
  | mismatch
  | notNull (table column : String)
  | notUnique (table column : String) (isKey : Bool)
  | cannotOpen
  | noSystem (name : String)
  deriving DecidableEq

namespace Problem

def message : Problem → String
  | .syntaxNear token => s!"near \"{token}\": syntax error"
  | .incomplete => "incomplete input"
  | .unrecognized token => s!"unrecognized token: \"{token}\""
  | .noTable name => s!"no such table: {name}"
  | .noColumn name => s!"no such column: {name}"
  | .noTables => "no tables specified"
  | .tableExists written => s!"table {written} already exists"
  | .repeatedColumn name => s!"duplicate column name: {name}"
  | .severalKeys table => s!"table \"{table}\" has more than one primary key"
  | .unevenValues => "all VALUES must have the same number of terms"
  | .valueCount table columns values =>
    s!"table {table} has {columns} columns but {values} values were supplied"
  | .valuesForColumns values columns => s!"{values} values for {columns} columns"
  | .noColumnNamed table name => s!"table {table} has no column named {name}"
  | .noRowCount => "misuse of aggregate: COUNT()"
  | .readOnly => "attempt to write a readonly database"
  | .mismatch => "datatype mismatch"
  | .notNull table column => s!"NOT NULL constraint failed: {table}.{column}"
  | .notUnique table column _ => s!"UNIQUE constraint failed: {table}.{column}"
  | .cannotOpen => "unable to open database file"
  | .noSystem name => s!"no such vfs: {name}"

def code : Problem → Nat
  | .readOnly => 8
  | .mismatch => 20
  | .notNull _ _ => 1299
  | .notUnique _ _ true => 1555
  | .notUnique _ _ false => 2067
  | .cannotOpen => 14
  | _ => 1

/-- Whether the problem comes up while a statement runs, and not before. -/
def isLate : Problem → Bool
  | .readOnly => true
  | .mismatch => true
  | .notNull _ _ => true
  | .notUnique _ _ _ => true
  | _ => false

def error (p : Problem) : Sql.DriverError :=
  let code := p.code
  let message := p.message
  .database s!"(code: {code}) {message}" message (some (toString code))

end Problem

end NamedStores.Sqlite
