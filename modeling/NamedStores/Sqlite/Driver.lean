/-
The driver of database handles. Databases of SQLite are run here; servers of other products
are not to be reached. A pool that may wait no time for its first connection never gets it.
-/
import NamedStores.Sql.ServerAddress
import NamedStores.Sqlite.Connection

namespace NamedStores.Sqlite

section

variable [Url.HostNames]

/-- The error with which a pool for a server ends. -/
def serverFailure (mayWait : Bool) (p : Sql.Product) (address : String) : Sql.DriverError :=
  match Sql.ServerAddress.failure p address with
  | .configuration detail => .configuration detail
  | e => if mayWait then e else .poolTimedOut

def connect (plan : Sql.PoolPlan) (w : World) : Except Sql.DriverError Client × World :=
  let mayWait := plan.acquireSeconds != 0
  match plan.target with
  | .sqlite address =>
    match Address.ofText address with
    | .error e => (.error e, w)
    | .ok a => if mayWait then w.connect a else (.error .poolTimedOut, w)
  | .postgreSQL address => (.error (serverFailure mayWait .postgreSQL address), w)
  | .mySQL address _ => (.error (serverFailure mayWait .mySQL address), w)

end

/-- The result of running a text: its rows and then, if it did not get to its end, the reason. -/
def items (r : Run) : List (Except Sql.Interruption Sql.Row) :=
  r.rows.map .ok ++ (r.stopped.map .error).toList

def total (r : Run) : Except Sql.Interruption Nat :=
  match r.stopped with
  | some i => .error i
  | none => .ok r.total

def ping (c : Client) (w : World) : Except Sql.DriverError Unit :=
  if (w.openConnection? c).isSome then .ok () else .error .poolClosed

/-- A version is known while the connection is open. -/
def version (c : Client) (w : World) : Option String :=
  (w.openConnection? c).map fun _ => "3"

def driver [Url.HostNames] : Sql.Driver World Client where
  connect := connect
  ping c w := (ping c w, w)
  version c w := (version c w, w)
  execute c sql params milliseconds w :=
    let (r, w) := w.run c sql params milliseconds
    (total r, w)
  fetch c sql params milliseconds w :=
    let (r, w) := w.run c sql params milliseconds
    (items r, w)
  close := World.close
  isClosed c w := (w.openConnection? c).isNone
  now _ := 0

end NamedStores.Sqlite
