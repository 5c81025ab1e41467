/-
The life of a registry: any sequence of registrations, loads, bulk steps and requests to single
handles, from the empty registry on, whatever the stores answer. In between anything may happen
to the world, as by handles that were replaced and are still in use.

A handle changes only by steps of its own life, so what those keep (`Evolves`) is kept by all
acts; with it the registry stays `Sound`: its handles in order, each under its own name, well
kept, and older than the next serial number.
-/
import Mathlib.Data.List.Forall2
import NamedStores.Proofs.Handle.Life
import NamedStores.Proofs.Registry.Visit
import NamedStores.Proofs.Text.Utf8
import NamedStores.Startup

namespace NamedStores

namespace Handle

variable {ω σ κ ο : Type}

/-- What no step of its life changes of a handle, and what each keeps. -/
structure Evolves (h h' : Handle σ κ) : Prop where
  name : h'.name = h.name
  policy : h'.policy = h.policy
  sectionName : h'.sectionName = h.sectionName
  serial : h'.serial = h.serial
  wellKept : WellKept h → WellKept h'

theorem Evolves.refl (h : Handle σ κ) : Evolves h h := ⟨rfl, rfl, rfl, rfl, id⟩

theorem Evolves.trans {h h' h'' : Handle σ κ} (first : Evolves h h') (second : Evolves h' h'') :
    Evolves h h'' where
  name := second.name.trans first.name
  policy := second.policy.trans first.policy
  sectionName := second.sectionName.trans first.sectionName
  serial := second.serial.trans first.serial
  wellKept := second.wellKept ∘ first.wellKept

theorem Configures.evolves {b : Backend ω σ κ} {c : Configuration} {part : String}
    {h h' : Handle σ κ} {s : σ} (hc : Configures b c part h s h') : Evolves h h' := by
  rcases hc with ⟨-, rfl⟩ | ⟨-, -, rfl⟩
  · exact .refl _
  · exact ⟨rfl, rfl, rfl, rfl, fun hw => ⟨fun _ => rfl, hw.connectedAt_iff⟩⟩

theorem Evolves.connected {h : Handle σ κ} {s : σ} (hs : h.settings = some s) (client : κ)
    (time : Nat) : Evolves h { h with client := some client, connectedAt := some time } :=
  ⟨rfl, rfl, rfl, rfl, fun _ => ⟨fun _ => by simp [hs], by simp⟩⟩

theorem Evolves.disconnected (h : Handle σ κ) :
    Evolves h { h with client := none, connectedAt := none } :=
  ⟨rfl, rfl, rfl, rfl, fun _ => ⟨by simp, by simp⟩⟩

theorem apply_evolves {b : Backend ω σ κ} {c : Configuration} {part : String} {h h' : Handle σ κ}
    {r : Except Trouble Unit} (he : h.apply b c part = (r, h')) : Evolves h h' := by
  rcases apply_cases he with ⟨e, -, -, rfl⟩ | ⟨s, hc, -⟩
  · exact .refl _
  · exact hc.evolves

theorem connect_evolves {b : Backend ω σ κ} {c : Configuration} {h h' : Handle σ κ} {w w' : ω}
    {r : Except Trouble Unit} (he : h.connect b c w = (r, h', w')) : Evolves h h' := by
  rcases connect_cases he with
    ⟨-, -, rfl, -⟩ | ⟨-, e, -, -, rfl, -⟩ | ⟨-, s, f, hc, -, -⟩ | ⟨-, s, h₁, k, hc, -, -, rfl⟩
  · exact .refl _
  · exact .refl _
  · exact hc.evolves
  · exact hc.evolves.trans (.connected hc.settings k _)

theorem disconnect_evolves {b : Backend ω σ κ} {h h' : Handle σ κ} {w w' : ω}
    {r : Except Trouble Unit} (he : h.disconnect b w = (r, h', w')) : Evolves h h' := by
  rcases disconnect_cases he with ⟨-, -, rfl, -⟩ | ⟨k, -, ⟨e, -, -, rfl⟩ | ⟨-, -, rfl⟩⟩
  · exact .refl _
  · exact .refl _
  · exact .disconnected h

theorem step_evolves (s : Service ω σ κ ο) (own : Configuration) (m : Moment ω σ κ)
    (r : Request ο) : Evolves m.handle (step s own m r).2.handle := by
  cases r with
  | apply c part => exact apply_evolves rfl
  | connect => exact connect_evolves rfl
  | disconnect => exact disconnect_evolves rfl
  | operate o => exact .refl _

theorem run_evolves (s : Service ω σ κ ο) (own : Configuration) :
    ∀ (m : Moment ω σ κ) (rs : List (Request ο)), Evolves m.handle (run s own m rs).handle
  | m, [] => .refl m.handle
  | m, r :: rs => (step_evolves s own m r).trans (run_evolves s own (step s own m r).2 rs)

end Handle

namespace Registry

variable {ω σ κ ο τ : Type}

/-! ## Acts -/

/-- What can happen to a registry and its world. -/
inductive Act (ω ο : Type) where
  | newHandle (name : String) (policy : ConnectPolicy)
  | load (part : String)
  | connectAll (part : String)
  | connectAllAtStart (part : String)
  | disconnectAll
  | request (name : String) (r : Handle.Request ο)
  /-- Something else changes the world. -/
  | elsewhere (w : ω)

/-- A request to the handle of a name, which is put back after it. -/
def request (s : Service ω σ κ ο) (m : Stores ω σ κ) (name : String) (r : Handle.Request ο) :
    Except Failure Unit × Stores ω σ κ :=
  match m.registry.get name with
  | .error f => (.error f, m)
  | .ok h =>
    let (result, after) := Handle.step s m.registry.configuration ⟨h, m.world⟩ r
    (result, ⟨m.registry.put after.handle, after.world⟩)

/-- A bulk step on the stores. -/
def bulk (step : Registry σ κ → ω → Except Stop Unit × Registry σ κ × ω) (m : Stores ω σ κ) :
    Except Failure Unit × Stores ω σ κ :=
  let (result, r, w) := step m.registry m.world
  (result.mapError Stop.failure, ⟨r, w⟩)

/-- One act: its result, and the stores after it. -/
def act (s : Service ω σ κ ο) (m : Stores ω σ κ) :
    Act ω ο → Except Failure Unit × Stores ω σ κ
  | .newHandle name policy => (.ok (), ⟨(m.registry.newHandle name policy).2, m.world⟩)
  | .load part =>
    let (result, r) := m.registry.load s.backend part
    (result.mapError Stop.failure, ⟨r, m.world⟩)
  | .connectAll part => bulk (connectAll s.backend part) m
  | .connectAllAtStart part => bulk (connectAllAtStart s.backend part) m
  | .disconnectAll => bulk (disconnectAll s.backend) m
  | .request name r => request s m name r
  | .elsewhere w => (.ok (), ⟨m.registry, w⟩)

/-- The stores after a run of acts. -/
def run (s : Service ω σ κ ο) (m : Stores ω σ κ) (acts : List (Act ω ο)) : Stores ω σ κ :=
  acts.foldl (fun m a => (act s m a).2) m

/-! ## Handles in their places -/

/-- Handles under the same names, each related to the one in its place. -/
def InPlace (R : Handle σ κ → Handle σ κ → Prop) :
    List (String × Handle σ κ) → List (String × Handle σ κ) → Prop :=
  List.Forall₂ fun p q => q.1 = p.1 ∧ R p.2 q.2

namespace InPlace

variable {R : Handle σ κ → Handle σ κ → Prop} {hs hs' : List (String × Handle σ κ)}

theorem refl (hR : ∀ h, R h h) (hs : List (String × Handle σ κ)) : InPlace R hs hs :=
  List.forall₂_same.2 fun p _ => ⟨rfl, hR p.2⟩

theorem keys (h : InPlace R hs hs') : hs'.map (·.1) = hs.map (·.1) := by
  induction h with
  | nil => rfl
  | cons hp _ ih => rw [List.map_cons, List.map_cons, hp.1, ih]

theorem mem_right (h : InPlace R hs hs') {name : String} {h' : Handle σ κ}
    (hm : (name, h') ∈ hs') : ∃ h, (name, h) ∈ hs ∧ R h h' := by
  induction h with
  | nil => cases hm
  | @cons p q hs hs' hp _ ih =>
    rcases List.mem_cons.1 hm with rfl | later
    · exact ⟨p.2, List.mem_cons.2 (.inl (Prod.ext hp.1 rfl)), hp.2⟩
    · obtain ⟨h, found, related⟩ := ih later
      exact ⟨h, List.mem_cons_of_mem p found, related⟩

end InPlace

/-- What a step that succeeds does to a handle was done in each place that was visited. -/
theorem Visits.inPlace {P : Handle σ κ → Prop} {R : Handle σ κ → Handle σ κ → Prop}
    {step : Handle σ κ → ω → Except τ Unit × Handle σ κ × ω}
    (hstep : ∀ h h' w w', P h → step h w = (.ok (), h', w') → R h h')
    {hs hs' : List (String × Handle σ κ)} {w w' : ω} (hP : ∀ p ∈ hs, P p.2)
    (hv : Visits step hs w hs' w') : InPlace R hs hs' := by
  induction hv with
  | nil => exact .nil
  | cons made _ ih =>
    exact .cons ⟨rfl, hstep _ _ _ _ (hP _ List.mem_cons_self) made⟩
      (ih fun p hp => hP p (List.mem_cons_of_mem _ hp))

/-- What every step does to a handle, or nothing, was done in each place. -/
theorem visit_inPlace {R : Handle σ κ → Handle σ κ → Prop} (hR : ∀ h, R h h)
    {step : Handle σ κ → ω → Except τ Unit × Handle σ κ × ω}
    (hstep : ∀ {h h' w w' result}, step h w = (result, h', w') → R h h')
    {hs hs' : List (String × Handle σ κ)} {w w' : ω} {result : Except τ Unit}
    (he : visit step hs w = (result, hs', w')) : InPlace R hs hs' := by
  have visited {hs hs' : List (String × Handle σ κ)} {w w' : ω} (hv : Visits step hs w hs' w') :
      InPlace R hs hs' :=
    hv.inPlace (P := fun _ => True) (R := R) (fun _ _ _ _ _ made => hstep made)
      fun _ _ => trivial
  rcases visit_cases he with
    ⟨-, hv⟩ | ⟨t, before, before', name, h, h', after, w₁, -, rfl, rfl, hv, failed⟩
  · exact visited hv
  · exact List.rel_append (visited hv) (.cons ⟨rfl, hstep failed⟩ (InPlace.refl hR after))

theorem connectStep_evolves {b : Backend ω σ κ} {c : Configuration} {part : String} {all : Bool}
    {h h' : Handle σ κ} {w w' : ω} {result : Except Stop Unit}
    (he : connectStep b c part (selects all) h w = (result, h', w')) : Handle.Evolves h h' := by
  rcases connectStep_cases he with ⟨e, -, rfl, -, -⟩ | ⟨s, h₁, hc, he⟩
  · exact .refl _
  · rcases connectStep_of_settings hc.settings he with
      ⟨-, rfl, -⟩ | ⟨-, -, refusal, -, rfl, -⟩ | ⟨-, -, client, -, -, rfl⟩
    · exact hc.evolves
    · exact hc.evolves
    · exact hc.evolves.trans (.connected hc.settings client _)

theorem disconnectStep_evolves {b : Backend ω σ κ} {h h' : Handle σ κ} {w w' : ω}
    {result : Except Stop Unit} (he : disconnectStep b h w = (result, h', w')) :
    Handle.Evolves h h' := by
  rcases disconnectStep_cases he with
    ⟨-, -, rfl, -⟩ | ⟨client, -, ⟨message, -, rfl, -⟩ | ⟨-, -, rfl⟩⟩
  · exact .refl _
  · exact .refl _
  · exact .disconnected h

/-! ## What holds between acts -/

/-- A registry between two acts. -/
structure Sound (c : Configuration) (r : Registry σ κ) : Prop where
  wellNamed : WellNamed r
  wellKept : ∀ p ∈ r.handles, Handle.WellKept p.2
  older : ∀ p ∈ r.handles, p.2.serial < r.nextSerial
  configuration : r.configuration = c

namespace Sound

variable {c : Configuration} {r : Registry σ κ}

theorem empty (c : Configuration) (part : String) :
    Sound c (Registry.empty c part : Registry σ κ) :=
  ⟨.empty, fun _ h => absurd h List.not_mem_nil, fun _ h => absurd h List.not_mem_nil, rfl⟩

/-- The handle under a name has that name. -/
theorem name_of_get? (hr : Sound c r) {name : String} {h : Handle σ κ}
    (hg : r.handles.get? name = some h) : h.name = name :=
  hr.wellNamed.named _ (SortedMap.mem_of_get? hg)

/-- The names ascend in the order of their octets. -/
theorem names_ascend (hr : Sound c r) :
    r.names.Pairwise fun a b => Utf8.ofString a < Utf8.ofString b :=
  (SortedMap.ordered_iff.1 hr.wellNamed.ordered).imp Utf8.ofString_lt

theorem inPlace (hr : Sound c r) {hs : SortedMap String (Handle σ κ)}
    (he : InPlace Handle.Evolves r.handles hs) : Sound c { r with handles := hs } where
  wellNamed := by
    refine ⟨hr.wellNamed.of_keys he.keys, ?_⟩
    rintro ⟨name, h'⟩ hm
    obtain ⟨h, found, evolved⟩ := he.mem_right hm
    exact evolved.name.trans (hr.wellNamed.named _ found)
  wellKept := by
    rintro ⟨name, h'⟩ hm
    obtain ⟨h, found, evolved⟩ := he.mem_right hm
    exact evolved.wellKept (hr.wellKept _ found)
  older := by
    rintro ⟨name, h'⟩ hm
    obtain ⟨h, found, evolved⟩ := he.mem_right hm
    have before := hr.older _ found
    rwa [← evolved.serial] at before
  configuration := hr.configuration

theorem enroll (hr : Sound c r) {h : Handle σ κ} (kept : Handle.WellKept h)
    (serial : h.serial = r.nextSerial) : Sound c (r.enroll h) where
  wellNamed := hr.wellNamed.enroll h
  wellKept := by
    intro p hp
    rcases (SortedMap.mem_insert hr.wellNamed.ordered).1 hp with rfl | ⟨old, -⟩
    · exact kept
    · exact hr.wellKept p old
  older := by
    intro p hp
    rcases (SortedMap.mem_insert hr.wellNamed.ordered).1 hp with rfl | ⟨old, -⟩
    · exact serial ▸ Nat.lt_succ_self _
    · exact Nat.lt_succ_of_lt (hr.older p old)
  configuration := hr.configuration

theorem register (hr : Sound c r) (name : String) (policy : ConnectPolicy) (part : String) :
    Sound c (r.register name policy part).2 :=
  hr.enroll (h := Handle.create name policy part r.nextSerial) .create rfl

theorem put (hr : Sound c r) {name : String} {h h' : Handle σ κ}
    (hg : r.handles.get? name = some h) (he : Handle.Evolves h h') : Sound c (r.put h') := by
  have named := he.name.trans (hr.name_of_get? hg)
  unfold Registry.put
  rw [named, hg]
  dsimp only
  split
  · have mem {p : String × Handle σ κ} (hp : p ∈ r.handles.insert name h') :
        p = (name, h') ∨ p ∈ r.handles :=
      ((SortedMap.mem_insert hr.wellNamed.ordered).1 hp).imp_right And.left
    have found := SortedMap.mem_of_get? hg
    refine ⟨⟨hr.wellNamed.ordered.insert name h', fun p hp => ?_⟩, fun p hp => ?_, fun p hp => ?_,
      hr.configuration⟩
    · rcases mem hp with rfl | old
      · exact named
      · exact hr.wellNamed.named p old
    · rcases mem hp with rfl | old
      · exact he.wellKept (hr.wellKept _ found)
      · exact hr.wellKept p old
    · rcases mem hp with rfl | old
      · exact he.serial ▸ hr.older _ found
      · exact hr.older p old
  · exact hr

theorem connectSelected (hr : Sound c r) (b : Backend ω σ κ) (part : String) (all : Bool) (w : ω) :
    Sound c (r.connectSelected b part (selects all) w).2.1 := by
  rcases hv : visit (connectStep b r.configuration part (selects all)) r.handles w with
    ⟨result, hs, w'⟩
  simp only [Registry.connectSelected, hv]
  exact hr.inPlace (visit_inPlace Handle.Evolves.refl connectStep_evolves hv)

theorem loadEntries (hr : Sound c r) {b : Backend ω σ κ} {part : String}
    {entries : List (String × Json)} {result : Except Stop Unit} {r' : Registry σ κ}
    (he : loadEntries b part entries r = (result, r')) : Sound c r' := by
  induction entries generalizing r with
  | nil =>
    cases he
    exact hr
  | cons e entries ih =>
    obtain ⟨name, entry⟩ := e
    rw [Registry.loadEntries] at he
    split at he
    · cases he
      exact hr
    · next record hrec =>
      have registered := hr.register name (ConnectPolicy.ofRecord record) part
      have hg := get?_register r name (ConnectPolicy.ofRecord record) part
      dsimp only at he
      split at he
      · cases he
        exact registered
      · next h ha => exact ih (registered.put hg (Handle.apply_evolves ha)) he

end Sound

theorem act_sound {c : Configuration} {s : Service ω σ κ ο} {m : Stores ω σ κ}
    (hm : Sound c m.registry) (a : Act ω ο) : Sound c (act s m a).2.registry := by
  cases a with
  | newHandle name policy => exact hm.register name policy m.registry.defaultSection
  | load part =>
    rcases he : m.registry.load s.backend part with ⟨result, r'⟩
    simp only [act, he]
    unfold load at he
    split at he
    · cases he
      exact hm
    · exact hm.loadEntries he
  | connectAll part => exact hm.connectSelected s.backend part true m.world
  | connectAllAtStart part => exact hm.connectSelected s.backend part false m.world
  | disconnectAll =>
    exact hm.inPlace (visit_inPlace Handle.Evolves.refl disconnectStep_evolves rfl)
  | request name r =>
    simp only [act, request, get]
    split
    · exact hm
    · next h found =>
      split at found
      · next hg =>
        cases found
        exact hm.put hg (Handle.step_evolves s _ ⟨h, m.world⟩ r)
      · cases found
  | elsewhere w => exact hm

/-- **Whatever happened to it, a registry is sound.** -/
theorem run_sound {c : Configuration} {s : Service ω σ κ ο} (acts : List (Act ω ο)) :
    ∀ {m : Stores ω σ κ}, Sound c m.registry → Sound c (run s m acts).registry := by
  induction acts with
  | nil => exact fun hm => hm
  | cons a acts ih => exact fun hm => ih (act_sound hm a)

end Registry

end NamedStores
