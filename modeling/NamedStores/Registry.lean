/-
Named handles of one kind, in the order of their names. A handle is registered under its own
name, in the place of the one there was. Bulk steps visit the handles in order and stop at
the first that fails, leaving those after it as they were.
-/
import NamedStores.Handle

namespace NamedStores

structure Registry (σ κ : Type) where
  configuration : Configuration
  defaultSection : String
  handles : SortedMap String (Handle σ κ)
  nextSerial : Nat

/-- Why a step on a registry stopped. -/
inductive Stop where
  /-- The section to load has no entries. -/
  | section (s : Setback)
  | malformedEntry (sectionName entry : String)
  /-- A handle, by name and policy, got into trouble; maybe while it was configured to connect. -/
  | handle (name : String) (must : Bool) (t : Trouble) (isConfiguring : Bool)
  deriving DecidableEq

namespace Stop

def failure : Stop → Failure
  | .section s => s.failure "" false
  | .malformedEntry part entry => .malformedEntry part entry
  | .handle name must t _ => t.failure name must

def events (kind : Kind) : Stop → List Event
  | .section s => s.events "" false
  | .malformedEntry part entry =>
    [⟨.error, "datastore_manager::registry", "Cannot read entry as an object", [
      ("kind", .string kind.label), ("section", .string part), ("entry", .string entry)]⟩]
  | .handle name must t isConfiguring =>
    t.events kind name must ++
      if isConfiguring then
        [⟨.error, "datastore_manager::registry", "Cannot configure handle to connect", [
          ("kind", .string kind.label), ("handle", .string name),
          ("error", .string (t.failure name must).message)]⟩]
      else []

end Stop

namespace Registry

variable {ω σ κ : Type}

def empty (c : Configuration) (defaultSection : String) : Registry σ κ :=
  ⟨c, defaultSection, [], 0⟩

/-! ## Looking up -/

def get (r : Registry σ κ) (name : String) : Except Failure (Handle σ κ) :=
  match r.handles.get? name with
  | some h => .ok h
  | none => .error (.handleNotFound name)

def contains (r : Registry σ κ) (name : String) : Bool := r.handles.contains name

def names (r : Registry σ κ) : List String := r.handles.keys

def size (r : Registry σ κ) : Nat := r.handles.length

def isEmpty (r : Registry σ κ) : Bool := r.handles.isEmpty

def summaries (kind : Kind) (r : Registry σ κ) : List Handle.Summary :=
  r.handles.map fun p => p.2.summary kind

/-! ## Registering -/

/-- Registers a new handle that reads its record from a section. -/
def register (r : Registry σ κ) (name : String) (policy : ConnectPolicy) (part : String) :
    Handle σ κ × Registry σ κ :=
  let h : Handle σ κ := Handle.create name policy part r.nextSerial
  (h, { r with handles := r.handles.insert name h, nextSerial := r.nextSerial + 1 })

/-- Registers a new handle that reads its record from the default section. -/
def newHandle (r : Registry σ κ) (name : String) (policy : ConnectPolicy) :
    Handle σ κ × Registry σ κ :=
  r.register name policy r.defaultSection

/-- Puts a handle back after a step, if it is the one registered under its name. -/
def put (r : Registry σ κ) (h : Handle σ κ) : Registry σ κ :=
  match r.handles.get? h.name with
  | some old => if old.serial = h.serial then { r with handles := r.handles.insert h.name h } else r
  | none => r

/-- Registers and configures a handle for each entry, up to the first that fails. -/
def loadEntries (b : Backend ω σ κ) (part : String) :
    List (String × Json) → Registry σ κ → Except Stop Unit × Registry σ κ
  | [], r => (.ok (), r)
  | (name, entry) :: entries, r =>
    match entry.record? with
    | none => (.error (.malformedEntry part name), r)
    | some record =>
      let policy := ConnectPolicy.ofRecord record
      let (h, r) := r.register name policy part
      match h.apply b r.configuration part with
      | (.error t, _) => (.error (.handle name policy.must t false), r)
      | (.ok _, h) => loadEntries b part entries (r.put h)

/-- Registers and configures a handle for each entry of a section, in the order of their names. -/
def load (b : Backend ω σ κ) (part : String) (r : Registry σ κ) :
    Except Stop Unit × Registry σ κ :=
  match r.configuration.section? part with
  | none => (.error (.section (.sectionNotFound part (r.configuration.contains part))), r)
  | some entries => loadEntries b part entries r

/-! ## Bulk steps -/

/-- Visits handles in order, up to the first step that fails. -/
def visit {τ : Type} (step : Handle σ κ → ω → Except τ Unit × Handle σ κ × ω) :
    List (String × Handle σ κ) → ω → Except τ Unit × List (String × Handle σ κ) × ω
  | [], w => (.ok (), [], w)
  | (name, h) :: hs, w =>
    match step h w with
    | (.error t, h, w) => (.error t, (name, h) :: hs, w)
    | (.ok _, h, w) =>
      let (result, hs, w) := visit step hs w
      (result, (name, h) :: hs, w)

/-- Configures a handle from a section and, if it is selected, connects it. -/
def connectStep (b : Backend ω σ κ) (c : Configuration) (part : String)
    (selected : Handle σ κ → Bool) (h : Handle σ κ) (w : ω) :
    Except Stop Unit × Handle σ κ × ω :=
  match h.apply b c part with
  | (.error t, h) => (.error (.handle h.name h.policy.must t true), h, w)
  | (.ok _, h) =>
    if selected h then
      match h.connect b c w with
      | (.error t, h, w) => (.error (.handle h.name h.policy.must t false), h, w)
      | (.ok _, h, w) => (.ok (), h, w)
    else (.ok (), h, w)

def connectSelected (b : Backend ω σ κ) (part : String) (selected : Handle σ κ → Bool)
    (r : Registry σ κ) (w : ω) : Except Stop Unit × Registry σ κ × ω :=
  let (result, hs, w) := visit (connectStep b r.configuration part selected) r.handles w
  (result, { r with handles := hs }, w)

/-- Configures every handle from a section and connects it. -/
def connectAll (b : Backend ω σ κ) (part : String) (r : Registry σ κ) (w : ω) :
    Except Stop Unit × Registry σ κ × ω :=
  connectSelected b part (fun _ => true) r w

/-- Configures every handle from a section and connects those whose policy says so. -/
def connectAllAtStart (b : Backend ω σ κ) (part : String) (r : Registry σ κ) (w : ω) :
    Except Stop Unit × Registry σ κ × ω :=
  connectSelected b part (fun h => h.policy.atStart) r w

def disconnectStep (b : Backend ω σ κ) (h : Handle σ κ) (w : ω) :
    Except Stop Unit × Handle σ κ × ω :=
  match h.disconnect b w with
  | (.error t, h, w) => (.error (.handle h.name h.policy.must t false), h, w)
  | (.ok _, h, w) => (.ok (), h, w)

def disconnectAll (b : Backend ω σ κ) (r : Registry σ κ) (w : ω) :
    Except Stop Unit × Registry σ κ × ω :=
  let (result, hs, w) := visit (disconnectStep b) r.handles w
  (result, { r with handles := hs }, w)

/-- The parts of a registry that never change, as text. -/
def description (kind : Kind) (r : Registry σ κ) : String :=
  let label := Quoted.quote kind.label
  let part := Quoted.quote r.defaultSection
  s!"Registry \x7b kind: {label}, default_section: {part}, .. \x7d"

end Registry

end NamedStores
