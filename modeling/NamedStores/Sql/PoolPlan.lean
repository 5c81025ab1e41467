/-
What a pool of connections is made with. The settings of a handle decide it: its product says how
the address is read, which character set is spoken and how many connections there may be when the
record does not say so; and no more of them are kept open than there may be.
-/
import NamedStores.Sql.Settings

namespace NamedStores.Sql

/-- Whom the connections of a pool go to: an address, as the client of one product reads it. -/
inductive Target where
  | postgreSQL (address : String)
  | mySQL (address charset : String)
  | sqlite (address : String)
  deriving DecidableEq

structure PoolPlan where
  target : Target
  /-- The connections that are kept open, and those that there may be. -/
  minConnections : Nat
  maxConnections : Nat
  /-- The seconds that a connection may be waited for, and those that it may be idle. -/
  acquireSeconds : Nat
  idleSeconds : Option Nat
  deriving DecidableEq

namespace Settings

def target (s : Settings) : Target :=
  match s.product with
  | .postgreSQL => .postgreSQL s.address
  | .mySQL => .mySQL s.address "utf8mb4"
  | .sqlite => .sqlite s.address

/-- The plan of a pool for these settings. -/
def poolPlan (s : Settings) : PoolPlan :=
  let most := s.pool.maxOrDefault (s.product = .sqlite)
  { target := s.target
    minConnections := min s.pool.minOrDefault most
    maxConnections := most
    acquireSeconds := s.pool.acquireOrDefault
    idleSeconds := some s.pool.idleOrDefault }

end Settings

end NamedStores.Sql
