/-
Options of a connection pool. From a record only whole numbers that fit are taken; any other
value counts as absent. A text of its own is read strictly. Options are checked as far as they
are given; the defaults, which depend on the product, are filled in when a pool is made.
-/
import NamedStores.Json.Shape
import NamedStores.Json.Writer

namespace NamedStores.Sql

structure PoolOptions where
  maxConnections : Option Nat
  minConnections : Option Nat
  idleSeconds : Option Nat
  acquireSeconds : Option Nat
  querySeconds : Option Nat
  deriving DecidableEq

namespace PoolOptions

def ofRecord (record : Record) : PoolOptions :=
  let number (bits : Nat) (field : String) : Option Nat :=
    (record.get? field).bind (Json.unsigned? bits)
  { maxConnections := number 32 "max_connections"
    minConnections := number 32 "min_connections"
    idleSeconds := number 64 "idle_timeout_secs"
    acquireSeconds := number 64 "acquire_timeout_secs"
    querySeconds := number 64 "query_timeout_secs" }

def shape : Json.Shape :=
  .structure "PoolOptions" [
    ("max_connections", .optional (.unsigned 32)),
    ("min_connections", .optional (.unsigned 32)),
    ("idle_timeout_secs", .optional (.unsigned 64)),
    ("acquire_timeout_secs", .optional (.unsigned 64)),
    ("query_timeout_secs", .optional (.unsigned 64))]

/-- The options of a text with exactly this shape, or what is wrong with it. -/
def ofOctets (bs : Bytes) : Except String PoolOptions :=
  (Json.ofOctetsAs shape bs).map fun v => ofRecord (v.record?.getD [])

/-- The fields of options, in the order in which they are declared. -/
def entries (o : PoolOptions) : List (String × Json) :=
  let number (n : Option Nat) : Json := Json.ofOption (n.map fun n => .integer n)
  [("max_connections", number o.maxConnections),
    ("min_connections", number o.minConnections),
    ("idle_timeout_secs", number o.idleSeconds),
    ("acquire_timeout_secs", number o.acquireSeconds),
    ("query_timeout_secs", number o.querySeconds)]

def json (o : PoolOptions) : Json := Json.fields o.entries

/-- Options as a text of their own, whose fields come as they are declared. -/
def octets (o : PoolOptions) : Bytes := (Json.object o.entries).octets

/-! ## Checks -/

def maxQuerySeconds : Nat := 300

inductive Invalid where
  | noConnections
  | querySeconds
  | minAboveMax (min max : Nat)
  deriving DecidableEq

def Invalid.message : Invalid → String
  | .noConnections => "max_connections must be greater than 0"
  | .querySeconds => s!"query_timeout_secs must be between 1 and {maxQuerySeconds}"
  | .minAboveMax min max => s!"min_connections ({min}) cannot exceed max_connections ({max})"

/-- The first check that fails, if one does. -/
def invalid? (o : PoolOptions) : Option Invalid :=
  if o.maxConnections = some 0 then some .noConnections
  else if o.querySeconds.any fun s => s = 0 || maxQuerySeconds < s then some .querySeconds
  else
    match o.minConnections, o.maxConnections with
    | some min, some max => if max < min then some (.minAboveMax min max) else none
    | _, _ => none

/-! ## Values in force -/

/-- A SQLite file takes one connection, a server ten. -/
def maxOrDefault (o : PoolOptions) (isSqlite : Bool) : Nat :=
  o.maxConnections.getD (if isSqlite then 1 else 10)

def minOrDefault (o : PoolOptions) : Nat := o.minConnections.getD 1

def idleOrDefault (o : PoolOptions) : Nat := o.idleSeconds.getD 600

def acquireOrDefault (o : PoolOptions) : Nat := o.acquireSeconds.getD 30

def queryOrDefault (o : PoolOptions) : Nat := o.querySeconds.getD 30

end PoolOptions

end NamedStores.Sql
