/-
The life of one handle: any sequence of requests to take settings, to connect, to disconnect
and to work on the data, from the handle as it was created, whatever the store answers each
time. The store is a `Backend` on a world of any type, so every pattern of successes and
failures of opening, pinging and closing is among the lives.

One step lemma (`step_lawful`) says how a request may change a handle, and one invariant
(`WellKept`) says what holds between requests; both kinds of handles obey them.
-/
import NamedStores.KeyValue.Handle
import NamedStores.Proofs.Handle.Steps
import NamedStores.Sql.Handle

namespace NamedStores

/-! ## Data operations -/

namespace Sql

inductive Operation where
  | execute (sql : String) (params : List Param)
  | query (r : Request)
  | ping

/-- Runs an operation, of whose result only success or failure is kept. -/
def Operation.run {ω κ : Type} (d : Driver ω κ) (h : Handle κ) (w : ω) :
    Operation → Except Failure Unit × ω
  | .execute sql params => (Handle.execute d h sql params w).map (·.map fun _ => ()) id
  | .query r => (Handle.query d h r w).map (·.map fun _ => ()) id
  | .ping => Handle.ping d h w

end Sql

namespace KeyValue

inductive Operation where
  | get (shape : Json.Shape) (key : String)
  | mustGet (shape : Json.Shape) (key : String)
  | set (key : String) (value : Except String Json) (expiration : Option Nat)
  | delete (key : String)
  | ping

/-- Runs an operation, of whose result only success or failure is kept. -/
def Operation.run {ω κ : Type} (d : Driver ω κ) (h : Handle κ) (w : ω) :
    Operation → Except Failure Unit × ω
  | .get shape key => (Handle.get d h shape key w).map (·.map fun _ => ()) id
  | .mustGet shape key => (Handle.mustGet d h shape key w).map (·.map fun _ => ()) id
  | .set key value expiration => Handle.set d h key value expiration w
  | .delete key => (Handle.delete d h key w).map (·.map fun _ => ()) id
  | .ping => Handle.ping d h w

end KeyValue

/-- A kind of stores: what their handles need, and the data operations `ο` on them. -/
structure Service (ω σ κ ο : Type) where
  backend : Backend ω σ κ
  operate : Handle σ κ → ω → ο → Except Failure Unit × ω

def Sql.service [Url.HostNames] {ω κ : Type} (d : Sql.Driver ω κ) :
    Service ω Sql.Settings (Sql.Live κ) Sql.Operation :=
  ⟨d.backend, Sql.Operation.run d⟩

def KeyValue.service [Url.HostNames] {ω κ : Type} (d : KeyValue.Driver ω κ) :
    Service ω KeyValue.Settings κ KeyValue.Operation :=
  ⟨d.backend, KeyValue.Operation.run d⟩

namespace Handle

variable {ω σ κ ο : Type}

/-- What can be asked of a handle. Settings may be taken from any document and section. -/
inductive Request (ο : Type) where
  | apply (c : Configuration) (part : String)
  | connect
  | disconnect
  | operate (o : ο)

/-- A handle in its world. -/
structure Moment (ω σ κ : Type) where
  handle : Handle σ κ
  world : ω

/-- One request: its result, and the moment after it. `own` is the document of the handle. -/
def step (s : Service ω σ κ ο) (own : Configuration) (m : Moment ω σ κ) :
    Request ο → Except Failure Unit × Moment ω σ κ
  | .apply c part =>
    let (r, h) := m.handle.apply s.backend c part
    (r.mapError (·.failure m.handle.name m.handle.policy.must), ⟨h, m.world⟩)
  | .connect =>
    let (r, h, w) := m.handle.connect s.backend own m.world
    (r.mapError (·.failure m.handle.name m.handle.policy.must), ⟨h, w⟩)
  | .disconnect =>
    let (r, h, w) := m.handle.disconnect s.backend m.world
    (r.mapError (·.failure m.handle.name m.handle.policy.must), ⟨h, w⟩)
  | .operate o =>
    let (r, w) := s.operate m.handle m.world o
    (r, ⟨m.handle, w⟩)

/-- The moment after a run of requests. -/
def run (s : Service ω σ κ ο) (own : Configuration) (m : Moment ω σ κ) (rs : List (Request ο)) :
    Moment ω σ κ :=
  rs.foldl (fun m r => (step s own m r).2) m

/-! ## What holds between requests -/

/-- A client is held only with settings, and its time of connecting exactly with it. -/
structure WellKept (h : Handle σ κ) : Prop where
  settings_of_client : h.client.isSome → h.settings.isSome
  connectedAt_iff : h.connectedAt.isSome ↔ h.client.isSome

theorem WellKept.create {name : String} {policy : ConnectPolicy} {part : String} {serial : Nat} :
    WellKept (Handle.create name policy part serial : Handle σ κ) :=
  ⟨by simp [Handle.create], by simp [Handle.create]⟩

theorem Configures.wellKept {b : Backend ω σ κ} {c : Configuration} {part : String}
    {h h' : Handle σ κ} {s : σ} (hc : Configures b c part h s h') (hw : WellKept h) :
    WellKept h' := by
  rcases hc with ⟨-, rfl⟩ | ⟨-, -, rfl⟩
  · exact hw
  · exact ⟨fun _ => rfl, hw.connectedAt_iff⟩

theorem Configures.settings {b : Backend ω σ κ} {c : Configuration} {part : String}
    {h h' : Handle σ κ} {s : σ} (hc : Configures b c part h s h') : h'.settings = some s := by
  rcases hc with ⟨hs, rfl⟩ | ⟨-, -, rfl⟩
  · exact hs
  · rfl

theorem Configures.keeps {b : Backend ω σ κ} {c : Configuration} {part : String}
    {h h' : Handle σ κ} {s old : σ} (hc : Configures b c part h s h')
    (ho : h.settings = some old) : h'.settings = some old := by
  rcases hc with ⟨-, rfl⟩ | ⟨hn, -, -⟩
  · exact ho
  · simp [hn] at ho

theorem step_wellKept {s : Service ω σ κ ο} {own : Configuration} {m : Moment ω σ κ}
    (hw : WellKept m.handle) (r : Request ο) : WellKept (step s own m r).2.handle := by
  cases r with
  | apply c part =>
    rcases he : m.handle.apply s.backend c part with ⟨result, h'⟩
    simp only [step, he]
    rcases apply_cases he with ⟨e, -, -, rfl⟩ | ⟨t, hc, -⟩
    · exact hw
    · exact hc.wellKept hw
  | connect =>
    rcases he : m.handle.connect s.backend own m.world with ⟨result, h', w'⟩
    simp only [step, he]
    rcases connect_cases he with
      ⟨-, -, rfl, -⟩ | ⟨-, e, -, -, rfl, -⟩ | ⟨-, t, f, hc, -, -⟩ | ⟨-, t, h₁, k, hc, -, -, rfl⟩
    · exact hw
    · exact hw
    · exact hc.wellKept hw
    · exact ⟨fun _ => by simp [hc.settings], by simp⟩
  | disconnect =>
    rcases he : m.handle.disconnect s.backend m.world with ⟨result, h', w'⟩
    simp only [step, he]
    rcases disconnect_cases he with ⟨-, -, rfl, -⟩ | ⟨k, -, ⟨e, -, -, rfl⟩ | ⟨-, -, rfl⟩⟩
    · exact hw
    · exact hw
    · exact ⟨by simp, by simp⟩
  | operate o => exact hw

theorem run_wellKept {s : Service ω σ κ ο} {own : Configuration} (rs : List (Request ο)) :
    ∀ {m : Moment ω σ κ}, WellKept m.handle → WellKept (run s own m rs).handle := by
  induction rs with
  | nil => exact fun hw => hw
  | cons r rs ih => exact fun hw => ih (step_wellKept hw r)

/-! ## What a request may change -/

/-- The moves of a handle's status. Only a connect that succeeds reaches `connected`, and only a
disconnect that succeeds leaves it. -/
inductive Moves (r : Request ο) (result : Except Failure Unit) : Status → Status → Prop
  | stays (t : Status) : Moves r result t t
  | configures : Moves r result .unconfigured .configured
  | connects (t : Status) : r = .connect → result = .ok () → Moves r result t .connected
  | disconnects : r = .disconnect → result = .ok () → Moves r result .connected .configured

/-- How a request with its result may change a handle `h` into `h'`. -/
structure Lawful (b : Backend ω σ κ) (own : Configuration) (r : Request ο)
    (result : Except Failure Unit) (h h' : Handle σ κ) : Prop where
  same : h'.name = h.name ∧ h'.policy = h.policy ∧ h'.sectionName = h.sectionName
  settings : ∀ t, h.settings = some t → h'.settings = some t
  moves : Moves r result h.status h'.status
  connected : r = .connect → result = .ok () → h'.status = .connected
  disconnected : r = .disconnect → result = .ok () → h'.status ≠ .connected
  configured : ∀ c part, r = .apply c part → result = .ok () → h'.settings.isSome
  apply_failed : ∀ c part e, r = .apply c part → result = .error e → h' = h
  disconnect_failed : ∀ e, r = .disconnect → result = .error e → h' = h
  operated : ∀ o, r = .operate o → h' = h
  connect_failed : ∀ e, r = .connect → result = .error e →
    h' = h ∨ (h.settings = none ∧ ∃ t, Reads b own h.sectionName h.name t ∧
      h' = { h with settings := some t })

theorem Moves.of_eq {r : Request ο} {result : Except Failure Unit} {h h' : Handle σ κ}
    (hh : h' = h) : Moves r result h.status h'.status := by
  rw [hh]
  exact .stays _

theorem mapError_error {ε δ α : Type} (f : ε → δ) (e : ε) :
    (Except.error e : Except ε α).mapError f = .error (f e) := rfl

theorem mapError_ok {ε δ α : Type} (f : ε → δ) (a : α) :
    (Except.ok a : Except ε α).mapError f = .ok a := rfl

/-- Settings that are read move a handle to `configured` at most. -/
theorem Configures.moves {b : Backend ω σ κ} {c : Configuration} {part : String}
    {h h' : Handle σ κ} {t : σ} (hc : Configures b c part h t h') (hk : h.client = none)
    (r : Request ο) (result : Except Failure Unit) : Moves r result h.status h'.status := by
  rcases hc with ⟨-, rfl⟩ | ⟨hs, -, rfl⟩
  · exact .stays _
  · have before : h.status = .unconfigured := status_unconfigured.2 ⟨hs, hk⟩
    have after : ({ h with settings := some t } : Handle σ κ).status = .configured :=
      status_configured.2 ⟨rfl, hk⟩
    rw [before, after]
    exact .configures

theorem Configures.same {b : Backend ω σ κ} {c : Configuration} {part : String}
    {h h' : Handle σ κ} {t : σ} (hc : Configures b c part h t h') :
    h'.name = h.name ∧ h'.policy = h.policy ∧ h'.sectionName = h.sectionName := by
  rcases hc with ⟨-, rfl⟩ | ⟨-, -, rfl⟩ <;> exact ⟨rfl, rfl, rfl⟩

theorem Configures.eq_or {b : Backend ω σ κ} {c : Configuration} {part : String}
    {h h' : Handle σ κ} {t : σ} (hc : Configures b c part h t h') :
    h' = h ∨ (h.settings = none ∧ ∃ t, Reads b c part h.name t ∧
      h' = { h with settings := some t }) := by
  rcases hc with ⟨-, hh⟩ | ⟨hn, hr, hh⟩
  · exact .inl hh
  · exact .inr ⟨hn, t, hr, hh⟩

/-- A request that leaves the handle as it is breaks no law, unless it is a step of the life
that reports success without the state it promises. -/
theorem Lawful.of_eq {b : Backend ω σ κ} {own : Configuration} {r : Request ο}
    {result : Except Failure Unit} {h h' : Handle σ κ} (hh : h' = h)
    (hc : r = .connect → result = .ok () → h.status = .connected)
    (hd : r = .disconnect → result = .ok () → h.status ≠ .connected)
    (ha : ∀ c part, r = .apply c part → result = .ok () → h.settings.isSome) :
    Lawful b own r result h h' := by
  subst hh
  exact {
    same := ⟨rfl, rfl, rfl⟩
    settings := fun _ hs => hs
    moves := .stays _
    connected := hc
    disconnected := hd
    configured := ha
    apply_failed := fun _ _ _ _ _ => rfl
    disconnect_failed := fun _ _ _ => rfl
    operated := fun _ _ => rfl
    connect_failed := fun _ _ _ => .inl rfl }

theorem apply_lawful {b : Backend ω σ κ} {own c : Configuration} {part : String}
    {h h' : Handle σ κ} {result : Except Trouble Unit} (f : Trouble → Failure)
    (hw : WellKept h) (he : h.apply b c part = (result, h')) :
    Lawful b own (.apply c part : Request ο) (result.mapError f) h h' := by
  rcases apply_cases he with ⟨e, -, rfl, hh⟩ | ⟨t, hc, rfl⟩
  · exact .of_eq hh (by simp) (by simp) (by simp [mapError_error])
  · refine {
      same := hc.same
      settings := fun _ => hc.keeps
      moves := ?_
      connected := by simp
      disconnected := by simp
      configured := fun _ _ _ _ => by simp [hc.settings]
      apply_failed := by simp [mapError_ok]
      disconnect_failed := by simp
      operated := by simp
      connect_failed := by simp }
    -- With a client there are settings already, and applying changes nothing.
    cases hk : h.client with
    | none => exact hc.moves hk _ _
    | some k =>
      rcases hc with ⟨-, hh⟩ | ⟨hn, -, -⟩
      · exact .of_eq hh
      · have := hw.settings_of_client (by simp [hk])
        simp [hn] at this

theorem connect_lawful {b : Backend ω σ κ} {own : Configuration} {h h' : Handle σ κ} {w w' : ω}
    {result : Except Trouble Unit} (f : Trouble → Failure)
    (he : h.connect b own w = (result, h', w')) :
    Lawful b own (.connect : Request ο) (result.mapError f) h h' := by
  rcases connect_cases he with
    ⟨hk, rfl, hh, -⟩ | ⟨-, e, -, rfl, hh, -⟩ | ⟨hk, t, e, hc, -, rfl⟩ | ⟨-, t, h₁, k, hc, -, rfl, hh⟩
  · exact .of_eq hh (fun _ _ => status_connected.2 hk) (by simp) (by simp)
  · exact .of_eq hh (by simp [mapError_error]) (by simp) (by simp)
  · exact {
      same := hc.same
      settings := fun _ => hc.keeps
      moves := hc.moves hk _ _
      connected := by simp [mapError_error]
      disconnected := by simp
      configured := by simp
      apply_failed := by simp
      disconnect_failed := by simp
      operated := by simp
      connect_failed := fun _ _ _ => hc.eq_or }
  · have connected : h'.status = .connected := status_connected.2 (by simp [hh])
    exact {
      same := hh ▸ hc.same
      settings := fun _ hs => by rw [hh]; exact hc.keeps hs
      moves := connected ▸ .connects _ rfl rfl
      connected := fun _ _ => connected
      disconnected := by simp
      configured := by simp
      apply_failed := by simp
      disconnect_failed := by simp
      operated := by simp
      connect_failed := by simp [mapError_ok] }

theorem disconnect_lawful {b : Backend ω σ κ} {own : Configuration} {h h' : Handle σ κ}
    {w w' : ω} {result : Except Trouble Unit} (f : Trouble → Failure) (hw : WellKept h)
    (he : h.disconnect b w = (result, h', w')) :
    Lawful b own (.disconnect : Request ο) (result.mapError f) h h' := by
  rcases disconnect_cases he with ⟨hk, rfl, hh, -⟩ | ⟨k, hk, ⟨e, -, rfl, hh⟩ | ⟨-, rfl, hh⟩⟩
  · exact .of_eq hh (by simp) (fun _ _ => by simp [status_connected, hk]) (by simp)
  · exact .of_eq hh (by simp) (by simp [mapError_error]) (by simp)
  · have before : h.status = .connected := status_connected.2 (by simp [hk])
    have after : h'.status = .configured :=
      status_configured.2 ⟨by rw [hh]; exact hw.settings_of_client (by simp [hk]), by rw [hh]⟩
    exact {
      same := by simp [hh]
      settings := fun _ hs => by rw [hh]; exact hs
      moves := by rw [before, after]; exact .disconnects rfl rfl
      connected := by simp
      disconnected := fun _ _ => by simp [after]
      configured := by simp
      apply_failed := by simp
      disconnect_failed := by simp [mapError_ok]
      operated := by simp
      connect_failed := by simp }

theorem step_lawful {s : Service ω σ κ ο} {own : Configuration} {m : Moment ω σ κ}
    (hw : WellKept m.handle) (r : Request ο) :
    Lawful s.backend own r (step s own m r).1 m.handle (step s own m r).2.handle := by
  cases r with
  | apply c part => exact apply_lawful _ hw rfl
  | connect => exact connect_lawful _ rfl
  | disconnect => exact disconnect_lawful _ hw rfl
  | operate o => exact .of_eq rfl (by simp) (by simp) (by simp)

theorem run_settings {s : Service ω σ κ ο} {own : Configuration} {t : σ} (rs : List (Request ο)) :
    ∀ {m : Moment ω σ κ}, WellKept m.handle → m.handle.settings = some t →
      (run s own m rs).handle.settings = some t := by
  induction rs with
  | nil => exact fun _ ht => ht
  | cons r rs ih =>
    exact fun hw ht => ih (step_wellKept hw r) ((step_lawful hw r).settings t ht)

/-! ## Both kinds of handles -/

/-- In every life of a handle, from its creation on, each moment is well kept and each request
lawful, and settings that are there stay through whatever comes. -/
def LawfulLives (s : Service ω σ κ ο) : Prop :=
  ∀ (own : Configuration) (name : String) (policy : ConnectPolicy) (part : String) (serial : Nat)
    (w : ω) (past : List (Request ο)) (next : Request ο) (future : List (Request ο)),
    let now := run s own ⟨Handle.create name policy part serial, w⟩ past
    let (result, after) := step s own now next
    WellKept now.handle ∧ Lawful s.backend own next result now.handle after.handle ∧
      ∀ t, now.handle.settings = some t → (run s own now future).handle.settings = some t

theorem lawfulLives_of_service (s : Service ω σ κ ο) : LawfulLives s := by
  intro own name policy part serial w past next future
  have hw : WellKept (run s own ⟨Handle.create name policy part serial, w⟩ past).handle :=
    run_wellKept past .create
  exact ⟨hw, step_lawful hw next, fun _ ht => run_settings future hw ht⟩

/-- **Handles live lawfully.** A database handle and a Redis handle, whatever their driver
answers, hold a client only with settings and a time of connecting only with a client, keep
their settings for good, and change their state as `Lawful` says and in no other way. -/
theorem handles_live_lawfully [Url.HostNames] :
    (∀ {ω κ : Type} (d : Sql.Driver ω κ), LawfulLives (Sql.service d)) ∧
      (∀ {ω κ : Type} (d : KeyValue.Driver ω κ), LawfulLives (KeyValue.service d)) :=
  ⟨fun d => lawfulLives_of_service (Sql.service d),
    fun d => lawfulLives_of_service (KeyValue.service d)⟩

end Handle

end NamedStores
