/-
Events worth a warning or more. An event names the part that reports it, says what happened,
and carries the values concerned as fields.
-/
import NamedStores.Json.Basic

namespace NamedStores

/-- The two kinds of stores. -/
inductive Kind where
  | database
  | redis
  deriving DecidableEq

namespace Kind

def label : Kind → String
  | .database => "database"
  | .redis => "redis"

/-- The part that reports events of handles of a kind. -/
def target : Kind → String
  | .database => "datastore_manager::db::handle"
  | .redis => "datastore_manager::redis::handle"

end Kind

inductive Level where
  | warn
  | error
  deriving DecidableEq

def Level.label : Level → String
  | .warn => "WARN"
  | .error => "ERROR"

structure Event where
  level : Level
  target : String
  message : String
  fields : List (String × Json)

namespace Event

def json (e : Event) : Json :=
  Json.fields [
    ("level", .string e.level.label),
    ("target", .string e.target),
    ("fields", Json.fields (("message", .string e.message) :: e.fields))]

end Event

end NamedStores
