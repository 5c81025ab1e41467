/-
Data operations of a Redis handle. Values are stored as JSON text. Every operation uses the
live client and changes nothing but the world; a failure names the handle and the key.
-/
import NamedStores.Handle
import NamedStores.Json.Shape
import NamedStores.Json.Writer
import NamedStores.KeyValue.Driver

namespace NamedStores.KeyValue

abbrev Handle (κ : Type) := NamedStores.Handle Settings κ

namespace Handle

variable {ω κ : Type}

def operationFailure (h : Handle κ) (command key message : String) : Failure :=
  .operation h.name key s!"{command}: {message}"

/-- The value of a key, read as a shape; nothing for a missing key. -/
def get (d : Driver ω κ) (h : Handle κ) (shape : Json.Shape) (key : String) (w : ω) :
    Except Failure (Option Json) × ω :=
  match h.liveClient with
  | .error f => (.error f, w)
  | .ok client =>
    match d.get client key w with
    | (.error message, w) => (.error (operationFailure h "GET" key message), w)
    | (.ok none, w) => (.ok none, w)
    | (.ok (some octets), w) =>
      match Json.ofOctetsAs shape octets with
      | .ok v => (.ok (some v), w)
      | .error message => (.error (.serialization h.name key message), w)

/-- As `get`, but a missing key is a failure. -/
def mustGet (d : Driver ω κ) (h : Handle κ) (shape : Json.Shape) (key : String) (w : ω) :
    Except Failure Json × ω :=
  match get d h shape key w with
  | (.error f, w) => (.error f, w)
  | (.ok none, w) => (.error (.keyNotFound h.name key), w)
  | (.ok (some v), w) => (.ok v, w)

/-- Stores a value, given as JSON or as the reason why JSON cannot hold it. -/
def set (d : Driver ω κ) (h : Handle κ) (key : String) (value : Except String Json)
    (expiration : Option Nat) (w : ω) : Except Failure Unit × ω :=
  match value with
  | .error message => (.error (.serialization h.name key message), w)
  | .ok v =>
    match h.liveClient with
    | .error f => (.error f, w)
    | .ok client =>
      let (result, w) := d.set client key v.octets expiration w
      (result.mapError (operationFailure h "SET" key), w)

/-- Removes a key, and says how many keys that removed. -/
def delete (d : Driver ω κ) (h : Handle κ) (key : String) (w : ω) : Except Failure Nat × ω :=
  match h.liveClient with
  | .error f => (.error f, w)
  | .ok client =>
    let (result, w) := d.delete client key w
    (result.mapError (operationFailure h "DEL" key), w)

def ping (d : Driver ω κ) (h : Handle κ) (w : ω) : Except Failure Unit × ω :=
  match h.liveClient with
  | .error f => (.error f, w)
  | .ok client =>
    let (result, w) := d.ping client w
    (result.mapError (operationFailure h "PING" ""), w)

end Handle

/-- A session of a user: who, with which roles, and until when. -/
def sessionShape : Json.Shape :=
  .structure "SessionRecord" [
    ("user_id", .unsigned 64), ("roles", .sequence .string), ("expires", .optional .string)]

end NamedStores.KeyValue
