/-
A handle of a named store. It starts with a name, a policy and the section its record is read
from; it takes settings once and keeps them for good; while connected it holds a client and
the time at which it got it.

Every step gives its result, the handle after it, and the world after it. A step that fails
leaves the handle as it was, except that a failing connect keeps the settings it read.
-/
import NamedStores.Backend
import NamedStores.ConnectPolicy
import NamedStores.Status
import NamedStores.Text.Quoted

namespace NamedStores

structure Handle (σ κ : Type) where
  name : String
  policy : ConnectPolicy
  sectionName : String
  /-- Tells handles apart that were registered under one name, one after the other. -/
  serial : Nat
  settings : Option σ
  client : Option κ
  connectedAt : Option Nat

namespace Handle

variable {ω σ κ : Type}

def create (name : String) (policy : ConnectPolicy) (part : String) (serial : Nat) :
    Handle σ κ :=
  ⟨name, policy, part, serial, none, none, none⟩

def status (h : Handle σ κ) : Status :=
  match h.settings, h.client with
  | _, some _ => .connected
  | some _, none => .configured
  | none, none => .unconfigured

/-! ## Steps -/

/-- The settings in force: those there are, else those of the record in a section. -/
def configure (b : Backend ω σ κ) (c : Configuration) (part : String) (h : Handle σ κ) :
    Except Setback (σ × Handle σ κ) :=
  match h.settings with
  | some s => .ok (s, h)
  | none =>
    match c.record part h.name with
    | .error setback => .error setback
    | .ok record =>
      match b.readSettings record with
      | .error d => .error (.defect d)
      | .ok s => .ok (s, { h with settings := some s })

/-- Takes settings from a section, unless there are settings already. -/
def apply (b : Backend ω σ κ) (c : Configuration) (part : String) (h : Handle σ κ) :
    Except Trouble Unit × Handle σ κ :=
  match h.configure b c part with
  | .error setback => (.error (.setback setback), h)
  | .ok (_, h) => (.ok (), h)

/-- Opens a client for settings and makes sure that the store answers. -/
def openClient (b : Backend ω σ κ) (s : σ) (w : ω) : Except Refusal κ × ω :=
  match b.connect s w with
  | (.error r, w) => (.error r, w)
  | (.ok client, w) =>
    match b.ping s client w with
    | (.error r, w) => (.error r, (b.close client w).2)
    | (.ok _, w) =>
      let (client, w) := b.greet client w
      (.ok client, w)

/-- Configures the handle from its own section if need be, and gets it a client if it has none. -/
def connect (b : Backend ω σ κ) (c : Configuration) (h : Handle σ κ) (w : ω) :
    Except Trouble Unit × Handle σ κ × ω :=
  match h.client with
  | some _ => (.ok (), h, w)
  | none =>
    match h.configure b c h.sectionName with
    | .error setback => (.error (.setback setback), h, w)
    | .ok (s, h) =>
      match openClient b s w with
      | (.error r, w) => (.error (.refused r), h, w)
      | (.ok client, w) =>
        (.ok (), { h with client := some client, connectedAt := some (b.now w) }, w)

/-- Closes the client, if there is one. A client that does not close stays. -/
def disconnect (b : Backend ω σ κ) (h : Handle σ κ) (w : ω) :
    Except Trouble Unit × Handle σ κ × ω :=
  match h.client with
  | none => (.ok (), h, w)
  | some client =>
    match b.close client w with
    | (.error message, w) => (.error (.unclosed message), h, w)
    | (.ok _, w) => (.ok (), { h with client := none, connectedAt := none }, w)

/-- The live client, which data operations use. -/
def liveClient (h : Handle σ κ) : Except Failure κ :=
  match h.client with
  | some client => .ok client
  | none => .error (.notConnected h.name)

/-! ## What is shown of a handle -/

/-- The state of a handle without its settings. -/
structure Summary where
  name : String
  kind : Kind
  status : Status
  policy : ConnectPolicy
  connectedAt : Option Nat

def summary (kind : Kind) (h : Handle σ κ) : Summary :=
  ⟨h.name, kind, h.status, h.policy, h.connectedAt⟩

/-- A summary with the time of connecting, where there is one, written by `time`. -/
def Summary.json (time : Nat → Json) (s : Summary) : Json :=
  Json.fields <| [
    ("name", .string s.name), ("kind", .string s.kind.label),
    ("status", .string s.status.label), ("policy", s.policy.json)] ++
    (s.connectedAt.map fun t => ("connected_at", time t)).toList

/-- The parts of a handle that never change, as text. -/
def description (kind : Kind) (h : Handle σ κ) : String :=
  let title := match kind with
    | .database => "DatabaseHandle"
    | .redis => "RedisHandle"
  let name := Quoted.quote h.name
  let part := Quoted.quote h.sectionName
  let atStart := toString h.policy.atStart
  let must := toString h.policy.must
  s!"{title} \x7b name: {name}, policy: ConnectPolicy \x7b connect_at_start: {atStart}, must_connect: {must} \x7d, section: {part}, .. \x7d"

end Handle

end NamedStores
