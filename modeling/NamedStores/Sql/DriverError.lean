/-
Errors of a database driver: their text, the failure that a statement reports for one, and
what is suggested when connecting ends with one.
-/
import NamedStores.Failure
import NamedStores.Sql.Product
import NamedStores.Text.Split

namespace NamedStores.Sql

inductive DriverError where
  | configuration (detail : String)
  /-- A refusal by the server: its text with and without the driver's own numbers, and its code. -/
  | database (shown message : String) (code : Option String)
  | transport (detail : String)
  | tls (detail : String)
  | protocol (detail : String)
  | rowNotFound
  | typeNotFound (name : String)
  | columnIndex (index len : Nat)
  | columnNotFound (name : String)
  | columnDecode (index detail : String)
  | encode (detail : String)
  | decode (detail : String)
  | anyDriver (detail : String)
  | poolTimedOut
  | poolClosed
  | workerCrashed
  | other (detail : String)

namespace DriverError

def text : DriverError → String
  | .configuration detail => s!"error with configuration: {detail}"
  | .database shown _ _ => s!"error returned from database: {shown}"
  | .transport detail => s!"error communicating with database: {detail}"
  | .tls detail => s!"error occurred while attempting to establish a TLS connection: {detail}"
  | .protocol detail => s!"encountered unexpected or invalid data: {detail}"
  | .rowNotFound => "no rows returned by a query that expected to return at least one row"
  | .typeNotFound name => s!"type named {name} not found"
  | .columnIndex index len =>
    s!"column index out of bounds: the len is {len}, but the index is {index}"
  | .columnNotFound name => s!"no column found for name: {name}"
  | .columnDecode index detail => s!"error occurred while decoding column {index}: {detail}"
  | .encode detail => s!"error occurred while encoding a value: {detail}"
  | .decode detail => s!"error occurred while decoding: {detail}"
  | .anyDriver detail => s!"error in Any driver mapping: {detail}"
  | .poolTimedOut => "pool timed out while waiting for an open connection"
  | .poolClosed => "attempted to acquire a connection on a closed pool"
  | .workerCrashed => "attempted to communicate with a crashed background worker"
  | .other detail => detail

/-- The failure of a statement that a handle ran. -/
def failure (e : DriverError) (handle : String) : Failure :=
  match e with
  | .database _ message code =>
    .database handle message code "Check the SQL syntax and referenced objects"
  | .rowNotFound =>
    .database handle "No rows returned" none "Verify the query conditions match existing data"
  | .poolTimedOut =>
    .database handle "Timed out waiting for a pooled connection" none
      "Raise max_connections or acquire_timeout_secs"
  | .poolClosed =>
    .database handle "Connection pool is closed" none
      "Reconnect the handle before issuing queries"
  | .transport detail =>
    .database handle s!"I/O error: {detail}" none
      "Check network connectivity and database server status"
  | .columnDecode index detail =>
    .database handle s!"Failed to decode column {index}: {detail}" none
      "Cast the column to a supported type"
  | e => .database handle e.text none "Check the database driver configuration"

/-- Where an address of each product is to be looked up. -/
def addressFormat : Product → String
  | .postgreSQL => "Verify the address format: postgres://host:5432/db"
  | .mySQL => "Verify the address format: mysql://host:3306/db"
  | .sqlite => "Verify the file path exists and is accessible: sqlite:path/to/db.sqlite"

/-- What to do about an error of connecting, by the words in its text, whose case does not matter. -/
def suggestion (e : DriverError) (product : Product) : String :=
  let lower := Case.lower e.text.toList
  let mentions (words : String) : Bool := Split.contains words.toList lower
  let name := product.displayName
  if mentions "connection refused" then s!"Check that the {name} server is running and accessible"
  else if mentions "authentication" || mentions "password" then "Verify the user_name and password fields"
  else if mentions "does not exist" || mentions "unknown database" then
    "Check that the database name exists"
  else if mentions "unable to open database file" then
    "Check that the SQLite file exists or add ?mode=rwc to create it"
  else addressFormat product

end DriverError

end NamedStores.Sql
