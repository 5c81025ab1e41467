/-
A store under watch. Every call that a handle makes of its driver is noted beside the world, and
every client gets a number as it is opened, by which later calls on it are known.

Watching changes nothing: a handle under watch goes through the same life, with the same results,
as the handle without (`Mirrors.run`). So what is noted is what any driver is asked.
-/
import NamedStores.Proofs.Handle.Life

namespace NamedStores

/-- A call of a driver. Clients are known by their numbers. -/
inductive Call where
  /-- The connector was asked for a client; it gave this one, or none. -/
  | opened (client : Option Nat)
  | pinged (client : Nat) (answered : Bool)
  /-- A command or a statement was sent. -/
  | used (client : Nat)
  | closed (client : Nat) (done : Bool)
  deriving DecidableEq

/-- The client on which a call is made. -/
def Call.on? : Call → Option Nat
  | .opened _ => none
  | .pinged i _ => some i
  | .used i => some i
  | .closed i _ => some i

/-- A client and its number. -/
structure Numbered (κ : Type) where
  number : Nat
  client : κ

/-- A world and the calls that were made in it, the latest first. -/
structure Watched (ω : Type) where
  world : ω
  calls : List Call

namespace Watched

variable {ω ε κ α : Type}

/-- Makes a call, noted together with how it went. -/
def note (call : α → Call) (made : ω → α × ω) (w : Watched ω) : α × Watched ω :=
  let (a, world) := made w.world
  (a, ⟨world, call a :: w.calls⟩)

/-- Opens a client. Its number is the number of calls made before, which no other client has. -/
def enroll (made : ω → Except ε κ × ω) (w : Watched ω) : Except ε (Numbered κ) × Watched ω :=
  let (r, world) := made w.world
  let number := w.calls.length
  (r.map fun client => ⟨number, client⟩,
    ⟨world, .opened (r.toOption.map fun _ => number) :: w.calls⟩)

end Watched

variable {ω κ : Type}

def Sql.Driver.watched (d : Sql.Driver ω κ) : Sql.Driver (Watched ω) (Numbered κ) where
  connect s := Watched.enroll (d.connect s)
  ping k := Watched.note (fun r => .pinged k.number r.isOk) (d.ping k.client)
  version k := Watched.note (fun _ => .used k.number) (d.version k.client)
  execute k sql params budget :=
    Watched.note (fun _ => .used k.number) (d.execute k.client sql params budget)
  fetch k sql params budget :=
    Watched.note (fun _ => .used k.number) (d.fetch k.client sql params budget)
  close k w := ⟨d.close k.client w.world, .closed k.number true :: w.calls⟩
  isClosed k w := d.isClosed k.client w.world
  now w := d.now w.world

def KeyValue.Driver.watched (d : KeyValue.Driver ω κ) :
    KeyValue.Driver (Watched ω) (Numbered κ) where
  connect s := Watched.enroll (d.connect s)
  ping k := Watched.note (fun r => .pinged k.number r.isOk) (d.ping k.client)
  get k key := Watched.note (fun _ => .used k.number) (d.get k.client key)
  set k key octets expiration :=
    Watched.note (fun _ => .used k.number) (d.set k.client key octets expiration)
  delete k key := Watched.note (fun _ => .used k.number) (d.delete k.client key)
  close k := Watched.note (fun r => .closed k.number r.isOk) (d.close k.client)
  now w := d.now w.world

/-! ## Watching changes nothing -/

/-- A handle whose client is seen as another. -/
def Handle.map {σ κ κ' : Type} (f : κ → κ') (h : Handle σ κ) : Handle σ κ' :=
  ⟨h.name, h.policy, h.sectionName, h.serial, h.settings, h.client.map f, h.connectedAt⟩

/-- A service does what another does, its worlds and clients being seen as the other's. -/
structure Mirrors {ω ω' σ κ κ' ο : Type} (s : Service ω σ κ ο) (s' : Service ω' σ κ' ο)
    (world : ω → ω') (client : κ → κ') : Prop where
  readSettings : s'.backend.readSettings = s.backend.readSettings
  connect : ∀ t w, s'.backend.connect t (world w) =
    ((s.backend.connect t w).1.map client, world (s.backend.connect t w).2)
  ping : ∀ t k w, s'.backend.ping t (client k) (world w) =
    ((s.backend.ping t k w).1, world (s.backend.ping t k w).2)
  greet : ∀ k w, s'.backend.greet (client k) (world w) =
    (client (s.backend.greet k w).1, world (s.backend.greet k w).2)
  close : ∀ k w, s'.backend.close (client k) (world w) =
    ((s.backend.close k w).1, world (s.backend.close k w).2)
  now : ∀ w, s'.backend.now (world w) = s.backend.now w
  operate : ∀ h w o, s'.operate (h.map client) (world w) o =
    ((s.operate h w o).1, world (s.operate h w o).2)

namespace Mirrors

variable {ω ω' σ κ κ' ο : Type} {s : Service ω σ κ ο} {s' : Service ω' σ κ' ο}
  {world : ω → ω'} {client : κ → κ'}

theorem configure (m : Mirrors s s' world client) (c : Configuration) (part : String)
    (h : Handle σ κ) : (h.map client).configure s'.backend c part =
      (h.configure s.backend c part).map fun (t, h) => (t, h.map client) := by
  obtain ⟨name, policy, own, serial, settings, held, connectedAt⟩ := h
  simp only [Handle.configure, Handle.map, m.readSettings]
  cases settings with
  | some t => rfl
  | none =>
    cases c.record part name with
    | error e => rfl
    | ok record =>
      dsimp only
      cases s.backend.readSettings record with
      | error d => rfl
      | ok t => rfl

theorem apply (m : Mirrors s s' world client) (c : Configuration) (part : String)
    (h : Handle σ κ) : (h.map client).apply s'.backend c part =
      ((h.apply s.backend c part).1, (h.apply s.backend c part).2.map client) := by
  simp only [Handle.apply, m.configure]
  cases h.configure s.backend c part with
  | error e => rfl
  | ok found => rfl

theorem openClient (m : Mirrors s s' world client) (t : σ) (w : ω) :
    Handle.openClient s'.backend t (world w) =
      ((Handle.openClient s.backend t w).1.map client,
        world (Handle.openClient s.backend t w).2) := by
  simp only [Handle.openClient, m.connect]
  rcases s.backend.connect t w with ⟨e | k, w₁⟩
  · rfl
  · simp only [Except.map, m.ping]
    rcases s.backend.ping t k w₁ with ⟨e | u, w₂⟩
    · simp only [m.close]
    · simp only [m.greet]

theorem connect_handle (m : Mirrors s s' world client) (c : Configuration) (h : Handle σ κ)
    (w : ω) : (h.map client).connect s'.backend c (world w) =
      ((h.connect s.backend c w).1, (h.connect s.backend c w).2.1.map client,
        world (h.connect s.backend c w).2.2) := by
  have client_eq : (h.map client).client = h.client.map client := rfl
  have section_eq : (h.map client).sectionName = h.sectionName := rfl
  simp only [Handle.connect, client_eq, section_eq, m.configure]
  cases h.client with
  | some k => rfl
  | none =>
    dsimp only [Option.map]
    cases h.configure s.backend c h.sectionName with
    | error e => rfl
    | ok found =>
      obtain ⟨t, h₁⟩ := found
      simp only [Except.map, m.openClient]
      rcases Handle.openClient s.backend t w with ⟨e | k, w₁⟩
      · rfl
      · simp only [m.now]
        rfl

theorem disconnect (m : Mirrors s s' world client) (h : Handle σ κ) (w : ω) :
    (h.map client).disconnect s'.backend (world w) =
      ((h.disconnect s.backend w).1, (h.disconnect s.backend w).2.1.map client,
        world (h.disconnect s.backend w).2.2) := by
  have client_eq : (h.map client).client = h.client.map client := rfl
  simp only [Handle.disconnect, client_eq]
  cases h.client with
  | none => rfl
  | some k =>
    simp only [Option.map, m.close]
    rcases s.backend.close k w with ⟨e | u, w₁⟩ <;> rfl

/-- The moment of a handle, seen as one of the other service. -/
def moment (world : ω → ω') (client : κ → κ') (m : Handle.Moment ω σ κ) :
    Handle.Moment ω' σ κ' :=
  ⟨m.handle.map client, world m.world⟩

theorem step (m : Mirrors s s' world client) (own : Configuration) (now : Handle.Moment ω σ κ)
    (r : Handle.Request ο) : Handle.step s' own (moment world client now) r =
      ((Handle.step s own now r).1, moment world client (Handle.step s own now r).2) := by
  cases r with
  | apply c part => simp only [Handle.step, moment, m.apply]; rfl
  | connect => simp only [Handle.step, moment, m.connect_handle]; rfl
  | disconnect => simp only [Handle.step, moment, m.disconnect]; rfl
  | operate o => simp only [Handle.step, moment, m.operate]

/-- A run of requests goes the same way in both services. -/
theorem run (m : Mirrors s s' world client) (own : Configuration) (rs : List (Handle.Request ο)) :
    ∀ now, Handle.run s' own (moment world client now) rs =
      moment world client (Handle.run s own now rs) := by
  induction rs with
  | nil => exact fun _ => rfl
  | cons r rs ih =>
    intro now
    have next := congrArg Prod.snd (m.step own now r)
    simp only [Handle.run, List.foldl_cons] at ih ⊢
    rw [next, ih]

end Mirrors

/-! ### Both kinds of stores -/

/-- A database client under watch, as the client it is. -/
def Sql.Live.unwatched (live : Sql.Live (Numbered κ)) : Sql.Live κ :=
  ⟨live.client.client, live.version, live.querySeconds⟩

theorem Sql.mirrors_watched [Url.HostNames] (d : Sql.Driver ω κ) :
    Mirrors (Sql.service d.watched) (Sql.service d) Watched.world Sql.Live.unwatched where
  readSettings := rfl
  connect t w := by
    simp only [Sql.service, Sql.Driver.backend, Sql.Driver.watched, Watched.enroll]
    cases (d.connect t.poolPlan w.world).1 <;> rfl
  ping t live w := rfl
  greet live w := rfl
  close live w := rfl
  now w := rfl
  operate h w o := by
    obtain ⟨name, policy, part, serial, settings, held, connectedAt⟩ := h
    cases o <;> cases held <;> rfl

theorem KeyValue.get_watched (d : KeyValue.Driver ω κ) (h : KeyValue.Handle (Numbered κ))
    (shape : Json.Shape) (key : String) (w : Watched ω) :
    KeyValue.Handle.get d (h.map Numbered.client) shape key w.world =
      ((KeyValue.Handle.get d.watched h shape key w).1,
        (KeyValue.Handle.get d.watched h shape key w).2.world) := by
  obtain ⟨name, policy, part, serial, settings, held, connectedAt⟩ := h
  cases held with
  | none => rfl
  | some k =>
    rcases answer : d.get k.client key w.world with ⟨r, v⟩
    have noted : d.watched.get k key w = (r, ⟨v, .used k.number :: w.calls⟩) := by
      simp only [Driver.watched, Watched.note, answer]
    simp only [KeyValue.Handle.get, Handle.liveClient, Handle.map, Option.map, answer, noted]
    rcases r with message | - | octets
    · rfl
    · rfl
    · dsimp only
      cases Json.ofOctetsAs shape octets <;> rfl

theorem KeyValue.mirrors_watched [Url.HostNames] (d : KeyValue.Driver ω κ) :
    Mirrors (KeyValue.service d.watched) (KeyValue.service d) Watched.world Numbered.client where
  readSettings := rfl
  connect t w := by
    simp only [KeyValue.service, KeyValue.Driver.backend, KeyValue.Driver.watched, Watched.enroll]
    cases (d.connect t w.world).1 <;> rfl
  ping t k w := rfl
  greet k w := rfl
  close k w := rfl
  now w := rfl
  operate h w o := by
    cases o with
    | get shape key =>
      simp only [KeyValue.service, Operation.run, get_watched]
      rfl
    | mustGet shape key =>
      simp only [KeyValue.service, Operation.run, KeyValue.Handle.mustGet, get_watched]
      rcases KeyValue.Handle.get d.watched h shape key w with ⟨e | found, v⟩
      · rfl
      · cases found <;> rfl
    | set key value expiration =>
      obtain ⟨name, policy, part, serial, settings, held, connectedAt⟩ := h
      cases value <;> cases held <;> rfl
    | delete key =>
      obtain ⟨name, policy, part, serial, settings, held, connectedAt⟩ := h
      cases held <;> rfl
    | ping =>
      obtain ⟨name, policy, part, serial, settings, held, connectedAt⟩ := h
      cases held <;> rfl

end NamedStores
