/-
Statements of a database handle. Each runs on the live client for as long as its request, or
else the settings, allow. Errors are reported under the name of the handle; of a query that
fails no rows are given back.
-/
import NamedStores.Handle
import NamedStores.Sql.Driver

namespace NamedStores.Sql

abbrev Handle (κ : Type) := NamedStores.Handle Settings (Live κ)

namespace Handle

variable {ω κ : Type}

/-- Whole seconds, as far as 32 bits hold them. -/
def wholeSeconds (milliseconds : Nat) : Nat := min (milliseconds / 1000) 0xFFFFFFFF

/-- The failure of a statement that was allowed so many milliseconds. -/
def interrupted (h : Handle κ) (milliseconds : Nat) : Interruption → Failure
  | .failed e => e.failure h.name
  | .timedOut => .timeout h.name "statement" (wholeSeconds milliseconds)

/-- Runs a statement for the rows it changes. -/
def execute (d : Driver ω κ) (h : Handle κ) (sql : String) (params : List Param) (w : ω) :
    Except Failure Execution × ω :=
  match h.liveClient with
  | .error f => (.error f, w)
  | .ok live =>
    let budget := live.querySeconds * 1000
    let (result, w') := d.execute live.client sql params budget w
    let done (rows : Nat) : Execution := ⟨rows, d.now w' - d.now w⟩
    ((result.map done).mapError (interrupted h budget), w')

/-- Runs a query for its rows, up to its limit. -/
def query (d : Driver ω κ) (h : Handle κ) (r : Request) (w : ω) : Except Failure ResultSet × ω :=
  match h.liveClient with
  | .error f => (.error f, w)
  | .ok live =>
    let budget := r.timeoutMs.getD (live.querySeconds * 1000)
    let (rows, w') := d.fetch live.client r.sql r.params budget w
    let result := ResultSet.ofStream r.rows rows (d.now w' - d.now w)
    (result.mapError (interrupted h budget), w')

/-- Makes sure that the database answers. -/
def ping (d : Driver ω κ) (h : Handle κ) (w : ω) : Except Failure Unit × ω :=
  match h.liveClient with
  | .error f => (.error f, w)
  | .ok live =>
    let (result, w) := d.ping live.client w
    (result.mapError fun e => .operation h.name "SELECT 1" e.text, w)

/-- The version of the server, while connected. -/
def serverVersion (h : Handle κ) : Option String := h.client.bind (·.version)

end Handle

end NamedStores.Sql
