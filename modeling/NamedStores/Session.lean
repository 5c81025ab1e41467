/-
A registry in use: the world its handles act on, and handles and clients kept by names of
their own. A kept handle stays the one it was, also after another one is registered under its
name; while it is the registered one, both are the same handle and change together. A kept
client stays the one it was when its handle has closed it.
-/
import NamedStores.Registry

namespace NamedStores

structure Session (ω σ κ : Type) where
  registry : Registry σ κ
  kept : SortedMap String (Handle σ κ)
  clients : SortedMap String κ
  world : ω

namespace Session

variable {ω σ κ : Type}

def start (r : Registry σ κ) (w : ω) : Session ω σ κ := ⟨r, [], [], w⟩

/-- The handle kept under a name, or else the one registered under the other name. -/
def find (s : Session ω σ κ) (held : Option String) (name : String) :
    Except Failure (Handle σ κ) :=
  match held.bind fun k => s.kept.get? k with
  | some h => .ok h
  | none => s.registry.get name

def keep (s : Session ω σ κ) (key : String) (h : Handle σ κ) : Session ω σ κ :=
  { s with kept := s.kept.insert key h }

def keepClient (s : Session ω σ κ) (key : String) (client : κ) : Session ω σ κ :=
  { s with clients := s.clients.insert key client }

/-- Puts a handle back after a step, wherever it is known. -/
def put (s : Session ω σ κ) (h : Handle σ κ) : Session ω σ κ :=
  { s with
    registry := s.registry.put h
    kept := s.kept.map fun (k, old) => (k, if old.serial = h.serial then h else old) }

/-- Brings kept handles up to date with the registered ones they are. -/
def refresh (s : Session ω σ κ) : Session ω σ κ :=
  { s with
    kept := s.kept.map fun (k, old) =>
      (k, ((s.registry.handles.get? old.name).filter (·.serial = old.serial)).getD old) }

def newHandle (s : Session ω σ κ) (name : String) (policy : ConnectPolicy) (hold : Option String) :
    Session ω σ κ :=
  let (h, r) := s.registry.newHandle name policy
  let s := { s with registry := r }
  match hold with
  | some key => s.keep key h
  | none => s

/-- A step of the registry that needs no world. -/
def load (b : Backend ω σ κ) (part : String) (s : Session ω σ κ) :
    Except Failure Unit × Session ω σ κ :=
  let (result, r) := s.registry.load b part
  (result.mapError Stop.failure, { s with registry := r }.refresh)

/-- A bulk step of the registry. -/
def bulk (step : Registry σ κ → ω → Except Stop Unit × Registry σ κ × ω) (s : Session ω σ κ) :
    Except Failure Unit × Session ω σ κ :=
  let (result, r, w) := step s.registry s.world
  (result.mapError Stop.failure, { s with registry := r, world := w }.refresh)

/-- A step in the life of one handle. -/
def live (step : Handle σ κ → ω → Except Trouble Unit × Handle σ κ × ω) (h : Handle σ κ)
    (s : Session ω σ κ) : Except Failure Unit × Session ω σ κ :=
  let (result, h', w) := step h s.world
  (result.mapError fun t => t.failure h.name h.policy.must, { s with world := w }.put h')

/-- A data operation of one handle: only the world changes. -/
def run {α : Type} (operation : ω → Except Failure α × ω) (s : Session ω σ κ) :
    Except Failure α × Session ω σ κ :=
  let (result, w) := operation s.world
  (result, { s with world := w })

end Session

end NamedStores
