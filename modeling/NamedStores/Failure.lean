/-
What can go wrong with a handle. Two kinds end the startup of a process: a mandatory field
that is missing, and a connection failure of a handle that must connect. Connection and
database failures come with a suggestion.
-/
namespace NamedStores

inductive Failure where
  | configurationNotFound (sectionName : String)
  | malformedEntry (sectionName entry : String)
  | mandatoryFieldMissing (handle field : String)
  | configurationUnusable (handle reason : String)
  | connection (handle message suggestion : String) (mandatory : Bool)
  | serialization (handle key message : String)
  | keyNotFound (handle key : String)
  | operation (handle key message : String)
  | notConnected (handle : String)
  | handleNotFound (name : String)
  | database (handle message : String) (sqlState : Option String) (suggestion : String)
  | timeout (handle work : String) (seconds : Nat)
  | configuration (message : String)
  deriving DecidableEq

namespace Failure

def message : Failure → String
  | .configurationNotFound part => s!"Configuration section '{part}' not found"
  | .malformedEntry part entry =>
    s!"Cannot read entry '{entry}' of configuration section '{part}' as an object"
  | .mandatoryFieldMissing handle field => s!"Mandatory {field} for '{handle}' not found"
  | .configurationUnusable handle reason => s!"Configuration of '{handle}' is unusable: {reason}"
  | .connection handle message _ _ => s!"Cannot connect to '{handle}': {message}"
  | .serialization handle key message =>
    s!"Cannot encode or decode value of '{handle}' key '{key}': {message}"
  | .keyNotFound handle key => s!"Key '{key}' not found in '{handle}'"
  | .operation handle key message => s!"Operation on '{handle}' key '{key}' failed: {message}"
  | .notConnected handle => s!"'{handle}' is not connected"
  | .handleNotFound name => s!"Handle not found: {name}"
  | .database handle message _ _ => s!"Database error on '{handle}': {message}"
  | .timeout handle work seconds => s!"Timeout on '{handle}': {work} exceeded {seconds}s"
  | .configuration message => s!"Configuration error: {message}"

def suggestion? : Failure → Option String
  | .connection _ _ suggestion _ => some suggestion
  | .database _ _ _ suggestion => some suggestion
  | _ => none

/-- Whether the failure ends the startup of a process. -/
def isFatal : Failure → Bool
  | .mandatoryFieldMissing _ _ => true
  | .connection _ _ _ mandatory => mandatory
  | _ => false

def sqlState? : Failure → Option String
  | .database _ _ state _ => state
  | _ => none

end Failure

end NamedStores
