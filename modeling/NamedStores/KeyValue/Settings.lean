/-
Settings of a Redis handle, read from its record. The database is the one the record names,
else the one the address names, else 0; where both name one they must agree. A TCP address
names it in its path, a socket address in its query.

The connection URL carries the database and the credentials in force: in path and user
information for a TCP address, in the query for a socket address, whose other pairs stay.
-/
import NamedStores.Mask
import NamedStores.Record
import NamedStores.Text.Integer
import NamedStores.Url.Form

namespace NamedStores.KeyValue

structure Settings where
  address : String
  userName : Option String
  password : Option String
  database : Int

/-! ## Addresses -/

def isSocketScheme (scheme : List Char) : Bool :=
  scheme = "unix".toList || scheme = "redis+unix".toList

def isSupported (scheme : List Char) : Bool :=
  scheme = "redis".toList || scheme = "rediss".toList || isSocketScheme scheme

variable [Url.HostNames]

/-- An address as a URL; without `://` it is host and port of a TCP address. -/
def parseAddress (address : String) : Except String Url :=
  let text := if Split.contains Mask.schemeEnd address.toList then address
    else "redis://" ++ address
  match Url.ofText text with
  | .error flaw =>
    let message := flaw.message
    .error s!"Invalid address: {message}"
  | .ok url =>
    if isSupported url.scheme then .ok url
    else
      let scheme := String.ofList url.scheme
      .error s!"unsupported Redis address scheme '{scheme}'"

/-- The text by which a URL names a database, if it does. -/
def databaseText? (url : Url) : Option String :=
  if isSocketScheme url.scheme then (url.queryPairs.find? (·.1 = "db")).map (·.2)
  else
    let slash (c : Char) : Bool := c = '/'
    let path := ((url.path.dropWhile slash).reverse.dropWhile slash).reverse
    if path.isEmpty then none else some (String.ofList path)

/-- The database an address names, if it does. -/
def addressDatabase (address : String) : Except String (Option Int) := do
  let url ← parseAddress address
  match databaseText? url with
  | none => return none
  | some db =>
    match (Integer.signed64? db.toList).filter (0 ≤ ·) with
    | some n => return some n
    | none => throw s!"address names database '{db}', not a database number"

namespace Settings

def ofRecord (record : Record) : Except Defect Settings := do
  let address ← record.requiredText "address"
  let explicit ← record.optionalInteger "database_index"
  if explicit.any (· < 0) then
    throw ⟨"database_index field", "database_index field must not be negative"⟩
  let named ← (addressDatabase address).mapError fun reason => (⟨"address field", reason⟩ : Defect)
  let database ←
    match explicit, named with
    | some i, some j =>
      if i = j then pure i
      else throw ⟨"database_index field",
        s!"database_index {i} conflicts with database {j} in the address"⟩
    | some i, none => pure i
    | none, some j => pure j
    | none, none => pure 0
  return ⟨address, record.optionalText "user_name", record.optionalText "password", database⟩

/-- The query of a socket address with database and credentials in force. -/
def socketPairs (s : Settings) (pairs : List (String × String)) : List (String × String) :=
  pairs.filter (fun p => p.1 ≠ "db" && p.1 ≠ "user" && p.1 ≠ "pass") ++
    [("db", toString s.database)] ++ (s.userName.map fun u => ("user", u)).toList ++
    (s.password.map fun p => ("pass", p)).toList

/-- The URL to connect to, or why the address cannot carry what it must. -/
def connectionUrl (s : Settings) : Except String Url := do
  let url ← parseAddress s.address
  if isSocketScheme url.scheme then
    return url.withQueryPairs (s.socketPairs url.queryPairs)
  let url := url.withIndexPath s.database
  let url ←
    match s.userName with
    | none => pure url
    | some name =>
      match url.withUserName? name with
      | some url => pure url
      | none => throw "Address cannot carry a user name"
  match s.password with
  | none => return url
  | some secret =>
    match url.withPassword? secret with
    | some url => return url
    | none => throw "Address cannot carry a password"

/-- Settings whose connection URL can be built. -/
def usable (record : Record) : Except Defect Settings := do
  let s ← ofRecord record
  match s.connectionUrl with
  | .ok _ => return s
  | .error reason => throw ⟨"address field", reason⟩

/-- The settings as they may be shown: without the password. -/
def json (s : Settings) : Json :=
  Json.fields [
    ("address", .string s.address),
    ("user_name", Json.ofText? s.userName),
    ("database_index", .integer s.database)]

end Settings

end NamedStores.KeyValue
