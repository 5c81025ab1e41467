/-
Connections to SQLite databases. A database lives in a file, which connections to the same
path share, or in memory, where it is gone with the last connection to it. A text is run
statement by statement; what the statements before an error did stays done.

The number of changed rows belongs to the connection: a statement that changes no rows leaves
it as it was, and one that fails while changing them sets it to 0.
-/
import NamedStores.Sql.Driver
import NamedStores.Sqlite.Address
import NamedStores.Sqlite.Database
import NamedStores.Sqlite.Reader

namespace NamedStores.Sqlite

/-- Where a database lives. -/
inductive Place where
  | file (path : Path)
  | memory (name : String)
  /-- In memory, for one connection alone. -/
  | unnamed (serial : Nat)
  deriving DecidableEq

structure Connection where
  place : Place
  isReadOnly : Bool
  changes : Nat
  isOpen : Bool

/-- All databases, the directories that files may lie in, and the connections made so far. -/
structure World where
  databases : List (Place × Database)
  directories : List Path
  connections : List Connection

/-- A client is the connection that was made so many connections after the first. -/
structure Client where
  index : Nat

namespace World

def fresh (directories : List String) : World := ⟨[], directories.map Path.ofText, []⟩

def database (w : World) (p : Place) : Database :=
  ((w.databases.find? (·.1 = p)).map (·.2)).getD []

def hasDatabase (w : World) (p : Place) : Bool := w.databases.any (·.1 = p)

def put (w : World) (p : Place) (db : Database) : World :=
  { w with databases := (p, db) :: w.databases.filter (·.1 ≠ p) }

def openConnection? (w : World) (c : Client) : Option Connection :=
  (w.connections[c.index]?).filter (·.isOpen)

/-! ## Opening and closing -/

def systems : List String := ["unix", "unix-dotfile", "unix-excl", "unix-none", "memdb"]

/-- Where the database of an address lives. -/
def placeOf (w : World) (a : Address) : Place :=
  let unnamed : Place := .unnamed w.connections.length
  match a.file with
  | none => unnamed
  | some file =>
    if a.isInMemory then (if a.isShared then .memory file else unnamed)
    else if file.isEmpty then unnamed
    else .file (Path.ofText file)

/-- A file must be there, unless it may be created in a directory that is. -/
def mayOpen (w : World) (a : Address) (p : Place) : Bool :=
  match p with
  | .file path =>
    w.hasDatabase p ||
      (a.mayCreate && !a.isReadOnly && w.directories.contains path.parent &&
        !w.directories.contains path)
  | _ => true

def connect (w : World) (a : Address) : Except Sql.DriverError Client × World :=
  let p := w.placeOf a
  match a.system.filter fun s => !systems.contains s with
  | some s => (.error (Problem.noSystem s).error, w)
  | none =>
    if w.mayOpen a p then
      let w := if w.hasDatabase p then w else w.put p []
      let connection : Connection := ⟨p, a.isReadOnly || a.isImmutable, 0, true⟩
      (.ok ⟨w.connections.length⟩, { w with connections := w.connections ++ [connection] })
    else (.error Problem.cannotOpen.error, w)

/-- Closes a connection; a database in memory goes with the last connection to it. -/
def close (c : Client) (w : World) : World :=
  match w.openConnection? c with
  | none => w
  | some connection =>
    let connections := w.connections.set c.index { connection with isOpen := false }
    let isKept : Bool :=
      match connection.place with
      | .file _ => true
      | p => connections.any fun other => other.isOpen && other.place = p
    { w with
      connections := connections
      databases := if isKept then w.databases
        else w.databases.filter (·.1 ≠ connection.place) }

end World

/-! ## Running -/

/-- What running a text has led to: rows, the changes counted after each statement, and the
reason why it stopped before its end, if it did. -/
structure Run where
  database : Database
  connection : Connection
  rows : List Sql.Row
  total : Nat
  stopped : Option Sql.Interruption

namespace Run

/-- The rows of a result, with the type names of their columns. -/
def rowsOf (r : Relation) : List Sql.Row :=
  let columns := r.columns.map fun (name, declared) =>
    let typeName := (declared.map ColumnDefinition.typeName).getD "NULL"
    ((⟨name, typeName⟩ : Sql.Column), Sql.ColumnKind.ofTypeName typeName)
  r.rows.map fun values => columns.zipWith (fun (c, kind) v => (c, v.json kind)) values

def start (db : Database) (c : Connection) : Run := ⟨db, c, [], 0, none⟩

def stop (r : Run) (i : Sql.Interruption) : Run := { r with stopped := some i }

/-- The run after one more statement. -/
def step (params : List Value) (fuel : Nat) (s : Statement) (r : Run) : Run :=
  match r.database.run r.connection.isReadOnly params fuel s with
  | .ok e =>
    let count := e.changes.getD r.connection.changes
    { r with
      database := e.database
      connection := { r.connection with changes := count }
      rows := r.rows ++ rowsOf e.result
      total := r.total + count }
  | .error .outOfTime => r.stop .timedOut
  | .error (.problem p) =>
    let count := if s.changesRows && p.isLate then 0 else r.connection.changes
    { r with connection := { r.connection with changes := count } }.stop (.failed p.error)

/-- Runs the statements of a text, each of at least one token. -/
def statements (params : List Value) (ticks : Nat) : Nat → List Token → Run → Run
  | 0, _, r => r
  | fuel + 1, ts, r =>
    match Reader.nextStatement? ts with
    | .error p => r.stop (.failed p.error)
    | .ok none => r
    | .ok (some (s, ts)) =>
      let r := r.step params ticks s
      if r.stopped.isSome then r else statements params ticks fuel ts r

/-- How many rows a growing table can take in a millisecond. -/
def ticksPerMillisecond : Nat := 1000

def ofText (sql : String) (params : List Value) (milliseconds : Nat) (r : Run) : Run :=
  let ts := Token.scan sql
  if milliseconds = 0 then r.stop .timedOut
  else r.statements params (milliseconds * ticksPerMillisecond) (ts.length + 1) ts

end Run

namespace World

/-- Runs a text on an open connection. -/
def run (c : Client) (sql : String) (params : List Sql.Param) (milliseconds : Nat) (w : World) :
    Run × World :=
  match w.openConnection? c with
  | none => ((Run.start [] ⟨.unnamed 0, false, 0, false⟩).stop (.failed .poolClosed), w)
  | some connection =>
    let r := (Run.start (w.database connection.place) connection).ofText sql
      (params.map Value.ofParam) milliseconds
    (r, { w.put connection.place r.database with
      connections := w.connections.set c.index r.connection })

end World

end NamedStores.Sqlite
