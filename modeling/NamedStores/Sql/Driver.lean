/-
What a handle needs of a database client `κ`. A statement is given so many milliseconds; one
that takes longer is cut off. A query delivers a stream of rows that ends with the last row or
with the first error. Closing never fails.
-/
import NamedStores.Backend
import NamedStores.Sql.DriverError
import NamedStores.Sql.PoolPlan
import NamedStores.Sql.ResultSet
import NamedStores.Sql.Request

namespace NamedStores.Sql

/-- Why a statement did not run to its end. -/
inductive Interruption where
  | failed (e : DriverError)
  | timedOut

structure Driver (ω κ : Type) where
  /-- Makes a pool of connections and waits for the first of them. -/
  connect : PoolPlan → ω → Except DriverError κ × ω
  ping : κ → ω → Except DriverError Unit × ω
  version : κ → ω → Option String × ω
  /-- Runs a statement and says how many rows it changed. -/
  execute : κ → String → List Param → Nat → ω → Except Interruption Nat × ω
  /-- Runs a query for its rows. -/
  fetch : κ → String → List Param → Nat → ω → List (Except Interruption Row) × ω
  close : κ → ω → ω
  isClosed : κ → ω → Bool
  now : ω → Nat

/-- A client, the version its server told, and the seconds that a statement may take. -/
structure Live (κ : Type) where
  client : κ
  version : Option String
  querySeconds : Nat

namespace Driver

variable {ω κ : Type}

/-- A connection error, with the address as it may be shown. -/
def refusal (s : Settings) (e : DriverError) : Refusal :=
  ⟨e.text, e.suggestion s.product, s.masked⟩

def backend [Url.HostNames] (d : Driver ω κ) : Backend ω Settings (Live κ) where
  kind := .database
  readSettings := Settings.ofRecord
  connect s w :=
    let (result, w) := d.connect s.poolPlan w
    let live (client : κ) : Live κ := ⟨client, none, s.pool.queryOrDefault⟩
    ((result.map live).mapError (refusal s), w)
  ping s live w :=
    let (result, w) := d.ping live.client w
    (result.mapError (refusal s), w)
  greet live w :=
    let (version, w) := d.version live.client w
    ({ live with version := version }, w)
  close live w := (.ok (), d.close live.client w)
  now := d.now

end Driver

end NamedStores.Sql
