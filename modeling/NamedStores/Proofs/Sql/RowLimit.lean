/-
How a query is cut to its limit. Of the stream of rows that the driver delivers, the handle looks
at one item more than it may give back: an error among those is the answer, and otherwise the
answer is the first rows, with a mark when there was one more. What stands behind the last item
looked at, be it rows, an error or the end of the time, changes nothing.
-/
import NamedStores.Sql.Handle
import NamedStores.Sql.Script

namespace NamedStores.Sql

namespace ResultSet

variable {ε δ ρ : Type}

/-! ## Streams -/

/-- The rows of a stream, up to its first error. -/
def rowsOf : List (Except ε ρ) → List ρ
  | .ok row :: items => row :: rowsOf items
  | _ => []

theorem fetch_eq_ok {n : Nat} {items : List (Except ε ρ)} {rows : List ρ} :
    fetch n items = .ok rows ↔ items.take n = rows.map .ok := by
  induction n generalizing items rows with
  | zero => cases rows <;> simp [fetch]
  | succ n ih =>
    cases items with
    | nil => cases rows <;> simp [fetch]
    | cons item items =>
      cases item with
      | error e => cases rows <;> simp [fetch]
      | ok row =>
        cases rows with
        | nil => cases h : fetch n items <;> simp [fetch, h, Except.map]
        | cons row' rows =>
          rw [List.take_succ_cons, List.map_cons, List.cons.injEq, ← ih]
          cases h : fetch n items <;> simp [fetch, h, Except.map]

/-- The columns of a row, in their order. -/
def columnsOf (row : Row) : List Column := row.map (·.1)

end ResultSet

/-! ## Queries -/

namespace Handle

open ResultSet

variable {ω κ : Type}

/-- What the driver delivers for a query in the time it has. -/
def delivered (d : Driver ω κ) (live : Live κ) (r : Request) (w : ω) :
    List (Except Interruption Row) × ω :=
  d.fetch live.client r.sql r.params (r.timeoutMs.getD (live.querySeconds * 1000)) w

/-- How long that takes, in milliseconds. -/
def elapsed (d : Driver ω κ) (live : Live κ) (r : Request) (w : ω) : Nat :=
  d.now (delivered d live r w).2 - d.now w

theorem query_eq {d : Driver ω κ} {h : Handle κ} {live : Live κ} (connected : h.client = some live)
    (r : Request) (w : ω) :
    (query d h r w).1 = ((fetch (r.rows + 1) (delivered d live r w).1).map
      (collect r.rows · (elapsed d live r w))).mapError
        (interrupted h (r.timeoutMs.getD (live.querySeconds * 1000))) := by
  have found : h.liveClient = .ok live := by
    simp only [NamedStores.Handle.liveClient, connected]
  simp only [query, found]
  rfl

end Handle

end NamedStores.Sql
