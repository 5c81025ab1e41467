/-
What keeps a handle from the next state of its life: it cannot be configured, its store
refuses the connection, or its client does not close. The cause is the same whatever the
policy of the handle; the policy decides which failure is reported for it, and how loudly.
-/
import NamedStores.Event
import NamedStores.Record

namespace NamedStores

/-- Why a store cannot be reached: the error, what to do, and the address as it may be shown. -/
structure Refusal where
  message : String
  suggestion : String
  shown : String
  deriving DecidableEq

inductive Trouble where
  | setback (s : Setback)
  | refused (r : Refusal)
  | unclosed (message : String)
  deriving DecidableEq

namespace Trouble

def failure (t : Trouble) (handle : String) (must : Bool) : Failure :=
  match t with
  | .setback s => s.failure handle must
  | .refused r => .connection handle r.message r.suggestion must
  | .unclosed message => .operation handle "" s!"CLOSE: {message}"

end Trouble

namespace Setback

def events (s : Setback) (handle : String) (must : Bool) : List Event :=
  let source := "datastore_manager::configuration"
  match s with
  | .sectionNotFound _ false => []
  | .sectionNotFound name true =>
    [⟨.warn, source, "Configuration section is not an object", [("section", .string name)]⟩]
  | .defect d =>
    let fields : List (String × Json) := [("handle", .string handle), ("field", .string d.field)]
    let reason := d.reason
    if must then [⟨.error, source, reason, fields⟩]
    else [⟨.warn, source, s!"Configuration is unusable: {reason}", fields⟩]

end Setback

namespace Trouble

def events (t : Trouble) (kind : Kind) (handle : String) (must : Bool) : List Event :=
  match t with
  | .setback s => s.events handle must
  | .refused r =>
    let (message, place) :=
      match kind with
      | .database => ("Cannot connect to database", "database")
      | .redis => ("Cannot connect to Redis", "address")
    [⟨.error, kind.target, message, [
      ("handle", .string handle), (place, .string r.shown), ("must_connect", .bool must),
      ("error", .string r.message)]⟩]
  | .unclosed message =>
    [⟨.error, kind.target, "Cannot close Redis connection", [
      ("handle", .string handle), ("error", .string message)]⟩]

end Trouble

end NamedStores
