/-
Addresses of database servers. None is reached over a network: a client that could tell where
to connect ends with the error of the place that it was sent to. An address that cannot be
read, or asks for an encryption mode that there is not, is an error before that.
-/
import NamedStores.Sql.DriverError
import NamedStores.Text.Quoted
import NamedStores.Url.Form
import NamedStores.Url.Reader

namespace NamedStores.Sql.ServerAddress

/-- The encryption modes of a product, in lower case. -/
def modes : Product → List String
  | .postgreSQL => ["disable", "allow", "prefer", "require", "verify-ca", "verify-full"]
  | .mySQL => ["disabled", "preferred", "required", "verify_ca", "verify_identity"]
  | .sqlite => []

/-- The first encryption mode among the pairs of a query that the product does not have. -/
def modeFault? (p : Product) (pairs : List (String × String)) : Option DriverError :=
  let isFault (pair : String × String) : Bool :=
    (pair.1 = "sslmode" || pair.1 = "ssl-mode") && !(modes p).contains (Case.lowerAsciiText pair.2)
  (pairs.find? isFault).map fun (_, value) =>
    let quoted := Quoted.quote value
    .configuration s!"error with configuration: unknown value {quoted} for `ssl_mode`"

/-- The socket file that an address names, if it names one. -/
def socket? (p : Product) (url : Url) : Option String :=
  let pairs := url.queryPairs.reverse
  let isPath (s : String) : Bool := s.toList.head? = some '/'
  match p with
  | .postgreSQL =>
    let host := Utf8.toStringLossy (Percent.decode ((url.authority.map (·.host)).getD []))
    let named := (pairs.find? fun q => q.1 = "host" && isPath q.2).map (·.2)
    let directory := named.orElse fun _ => if isPath host then some host else none
    let port := toString (((url.authority.bind (·.port))).getD 5432)
    directory.map fun d => s!"{d}/.s.PGSQL.{port}"
  | _ => (pairs.find? (·.1 = "socket")).map (·.2)

def localHosts : List String := ["", "localhost", "127.0.0.1", "[::1]"]

/-- The error with which connecting to an address ends. -/
def failure [Url.HostNames] (p : Product) (address : String) : DriverError :=
  match Url.ofText address with
  | .error flaw => .configuration flaw.message
  | .ok url =>
    match modeFault? p url.queryPairs with
    | some e => e
    | none =>
      match socket? p url with
      | some path =>
        if 108 ≤ (Utf8.ofString path).length then
          .transport "path must be shorter than SUN_LEN"
        else .transport "No such file or directory (os error 2)"
      | none =>
        if localHosts.contains (String.ofList ((url.authority.map (·.host)).getD [])) then
          .poolTimedOut
        else
          .transport "failed to lookup address information: Name or service not known"

end NamedStores.Sql.ServerAddress
