/-
Which failures end a startup. Whatever keeps a handle from being brought up is judged by its
policy alone: fatal when the handle must connect, and not otherwise. Only a section that is not
there, or an entry that is no object, concerns no handle and is not fatal. Nothing that a
handle in use reports is fatal, and neither is closing it.
-/
import NamedStores.KeyValue.Memory
import NamedStores.Proofs.Handle.Policy
import NamedStores.Proofs.Registry.Life

namespace NamedStores

/-! ## Failures -/

namespace Failure

/-- The handle that a failure concerns, if it concerns one. -/
def handle? : Failure → Option String
  | .configurationNotFound _ => none
  | .malformedEntry _ _ => none
  | .mandatoryFieldMissing handle _ => some handle
  | .configurationUnusable handle _ => some handle
  | .connection handle _ _ _ => some handle
  | .serialization handle _ _ => some handle
  | .keyNotFound handle _ => some handle
  | .operation handle _ _ => some handle
  | .notConnected handle => some handle
  | .handleNotFound name => some name
  | .database handle _ _ _ => some handle
  | .timeout handle _ _ => some handle
  | .configuration _ => none

/-- How a failure to bring a handle up is judged: by the policy, unless the section is not there. -/
def JudgedBy (c : Configuration) (part name : String) (must : Bool) (f : Failure) : Prop :=
  (f = .configurationNotFound part ∧ c.section? part = none ∧ f.isFatal = false) ∨
    (f.handle? = some name ∧ f.isFatal = must)

end Failure

theorem Defect.failure_judged (d : Defect) (name : String) (must : Bool) :
    (d.failure name must).handle? = some name ∧ (d.failure name must).isFatal = must := by
  cases must <;> exact ⟨rfl, rfl⟩

theorem Configuration.record_error {c : Configuration} {part name : String} {e : Setback}
    (he : c.record part name = .error e) :
    (c.section? part = none ∧ e = .sectionNotFound part (c.contains part)) ∨ ∃ d, e = .defect d := by
  unfold Configuration.record at he
  split at he
  · next absent =>
    cases he
    exact .inl ⟨absent, rfl⟩
  · split at he
    · cases he
    · cases he
      exact .inr ⟨_, rfl⟩

/-- No failure, or one that is not fatal. -/
def Mild {α : Type} (r : Except Failure α) : Prop :=
  ∀ f, r = .error f → f.isFatal = false

/-- A failure in which no policy shows is not fatal. -/
theorem Failure.Unjudged.mild {α : Type} {r : Except Failure α} (h : Unjudged r) : Mild r :=
  fun f failed => isFatal_of_unjudged (h f failed)

theorem Sql.Operation.run_mild {ω κ : Type} (d : Sql.Driver ω κ) (h : Sql.Handle κ) (w : ω)
    (o : Sql.Operation) : Mild (Sql.Operation.run d h w o).1 :=
  (Sql.Operation.run_unjudged d h w o).mild

theorem KeyValue.Operation.run_mild {ω κ : Type} (d : KeyValue.Driver ω κ) (h : KeyValue.Handle κ)
    (w : ω) (o : KeyValue.Operation) : Mild (KeyValue.Operation.run d h w o).1 :=
  (KeyValue.Operation.run_unjudged d h w o).mild

/-! ## Handles -/

namespace Handle

variable {ω σ κ ο : Type} {b : Backend ω σ κ} {c : Configuration} {part : String}
  {h h' : Handle σ κ} {w w' : ω}

theorem configure_judged {e : Setback} (he : h.configure b c part = .error e) :
    (e.failure h.name h.policy.must).JudgedBy c part h.name h.policy.must := by
  have found : (c.section? part = none ∧ e = .sectionNotFound part (c.contains part)) ∨
      ∃ d, e = .defect d := by
    rcases (configure_error he).2 with absent | ⟨record, d, -, -, rfl⟩
    · exact Configuration.record_error absent
    · exact .inr ⟨d, rfl⟩
  rcases found with ⟨absent, rfl⟩ | ⟨d, rfl⟩
  · exact .inl ⟨rfl, absent, rfl⟩
  · exact .inr (d.failure_judged h.name h.policy.must)

theorem apply_judged {t : Trouble} (he : h.apply b c part = (.error t, h')) :
    (t.failure h.name h.policy.must).JudgedBy c part h.name h.policy.must := by
  rcases apply_cases he with ⟨e, hc, same, -⟩ | ⟨s, -, done⟩
  · cases same
    exact configure_judged hc
  · cases done

theorem connect_judged {t : Trouble} (he : h.connect b c w = (.error t, h', w')) :
    (t.failure h.name h.policy.must).JudgedBy c h.sectionName h.name h.policy.must := by
  rcases connect_cases he with
    ⟨-, done, -⟩ | ⟨-, e, hc, same, -⟩ | ⟨-, s, refusal, -, -, same⟩ | ⟨-, s, h₁, k, -, -, done, -⟩
  · cases done
  · cases same
    exact configure_judged hc
  · cases same
    exact .inr ⟨rfl, rfl⟩
  · cases done

theorem disconnect_mild {t : Trouble} (he : h.disconnect b w = (.error t, h', w')) (name : String)
    (must : Bool) : (t.failure name must).isFatal = false := by
  rcases disconnect_cases he with ⟨-, done, -⟩ | ⟨k, -, ⟨e, -, same, -⟩ | ⟨-, done, -⟩⟩
  · cases done
  · cases same
    rfl
  · cases done

/-- How the failure of a request to a handle is judged. -/
def Request.Judges (own : Configuration) (h : Handle σ κ) (f : Failure) : Request ο → Prop
  | .apply c part => f.JudgedBy c part h.name h.policy.must
  | .connect => f.JudgedBy own h.sectionName h.name h.policy.must
  | .disconnect => f.isFatal = false
  | .operate _ => f.isFatal = false

theorem error_of_mapError {ε δ α : Type} {r : Except ε α} {g : ε → δ} {f : δ}
    (he : r.mapError g = .error f) : ∃ e, r = .error e ∧ f = g e := by
  cases r with
  | error e =>
    cases he
    exact ⟨e, rfl, rfl⟩
  | ok a => cases he

theorem step_judged {s : Service ω σ κ ο} (mild : ∀ h w o, Mild (s.operate h w o).1)
    {own : Configuration} {m : Moment ω σ κ} {r : Request ο} {f : Failure}
    (he : (step s own m r).1 = .error f) : r.Judges own m.handle f := by
  cases r with
  | apply c part =>
    obtain ⟨t, failed, rfl⟩ := error_of_mapError he
    exact apply_judged (Prod.ext failed rfl)
  | connect =>
    obtain ⟨t, failed, rfl⟩ := error_of_mapError he
    exact connect_judged (Prod.ext failed rfl)
  | disconnect =>
    obtain ⟨t, failed, rfl⟩ := error_of_mapError he
    exact disconnect_mild (Prod.ext failed rfl) _ _
  | operate o => exact mild m.handle m.world o f he

end Handle

/-! ## Registries -/

namespace Registry

variable {ω σ κ ο : Type}

/-- The failure concerns a handle that is registered, and is judged by its policy. -/
def JudgedBySome (r : Registry σ κ) (f : Failure) : Prop :=
  ∃ name h, r.handles.get? name = some h ∧ f.handle? = some name ∧ f.isFatal = h.policy.must

/-- How the failure of an act is judged, from the stores before and after it. -/
def Act.Judges (m after : Stores ω σ κ) (f : Failure) : Act ω ο → Prop
  | .newHandle _ _ => False
  | .load part =>
    (f = .configurationNotFound part ∧ m.registry.configuration.section? part = none ∧
      f.isFatal = false) ∨
    (∃ name, f = .malformedEntry part name ∧ f.isFatal = false) ∨ JudgedBySome after.registry f
  | .connectAll part =>
    (f = .configurationNotFound part ∧ m.registry.configuration.section? part = none ∧
      f.isFatal = false) ∨ JudgedBySome after.registry f
  | .connectAllAtStart part =>
    (f = .configurationNotFound part ∧ m.registry.configuration.section? part = none ∧
      f.isFatal = false) ∨ JudgedBySome after.registry f
  | .disconnectAll => f.isFatal = false
  | .request name r =>
    (f = .handleNotFound name ∧ m.registry.handles.get? name = none ∧ f.isFatal = false) ∨
      ∃ h, m.registry.handles.get? name = some h ∧ r.Judges m.registry.configuration h f
  | .elsewhere _ => False

theorem put_configuration (r : Registry σ κ) (h : Handle σ κ) :
    (r.put h).configuration = r.configuration := by
  unfold put
  split
  · split <;> rfl
  · rfl

theorem loadEntries_judged {b : Backend ω σ κ} {part : String} {records : Record}
    {entries : List (String × Json)} {r r' : Registry σ κ} {stop : Stop}
    (present : r.configuration.section? part = some records)
    (he : loadEntries b part entries r = (.error stop, r')) :
    (∃ name, stop.failure = .malformedEntry part name ∧ stop.failure.isFatal = false) ∨
      JudgedBySome r' stop.failure := by
  induction entries generalizing r with
  | nil => cases he
  | cons e entries ih =>
    obtain ⟨name, entry⟩ := e
    rw [loadEntries] at he
    split at he
    · cases he
      exact .inl ⟨name, rfl, rfl⟩
    · next record hrec =>
      dsimp only at he
      split at he
      · next t h₁ failed =>
        cases he
        refine .inr ⟨name, _, get?_register r name (ConnectPolicy.ofRecord record) part, ?_⟩
        rcases Handle.apply_judged failed with ⟨-, absent, -⟩ | judged
        · cases present.symm.trans absent
        · exact judged
      · next h₁ done => exact ih ((put_configuration _ _).symm ▸ present) he

theorem load_judged {b : Backend ω σ κ} {part : String} {r r' : Registry σ κ} {stop : Stop}
    (he : r.load b part = (.error stop, r')) :
    (stop.failure = .configurationNotFound part ∧ r.configuration.section? part = none ∧
      stop.failure.isFatal = false) ∨
    (∃ name, stop.failure = .malformedEntry part name ∧ stop.failure.isFatal = false) ∨
      JudgedBySome r' stop.failure := by
  unfold load at he
  split at he
  · next absent =>
    cases he
    exact .inl ⟨rfl, absent, rfl⟩
  · next records present => exact .inr (loadEntries_judged present he)

theorem connectStep_judged {b : Backend ω σ κ} {c : Configuration} {part : String} {all : Bool}
    {h h' : Handle σ κ} {w w' : ω} {stop : Stop}
    (he : connectStep b c part (selects all) h w = (.error stop, h', w')) :
    stop.failure.JudgedBy c part h.name h.policy.must := by
  rcases connectStep_cases he with ⟨e, hc, -, -, same⟩ | ⟨s, h₁, hc, he⟩
  · cases same
    exact Handle.configure_judged hc
  · obtain ⟨-, -, -, refusal, -, rfl⟩ := connectStep_error hc.settings he
    exact .inr ⟨congrArg some hc.evolves.name, congrArg ConnectPolicy.must hc.evolves.policy⟩

theorem disconnectStep_mild {b : Backend ω σ κ} {h h' : Handle σ κ} {w w' : ω} {stop : Stop}
    (he : disconnectStep b h w = (.error stop, h', w')) : stop.failure.isFatal = false := by
  rcases disconnectStep_cases he with
    ⟨-, done, -⟩ | ⟨client, -, ⟨message, -, -, same⟩ | ⟨-, done, -⟩⟩
  · cases done
  · cases same
    rfl
  · cases done

theorem connectSelected_judged {b : Backend ω σ κ} {c : Configuration} {part : String} {all : Bool}
    {r r' : Registry σ κ} (hr : Sound c r) {w w' : ω} {stop : Stop}
    (he : connectSelected b part (selects all) r w = (.error stop, r', w')) :
    (stop.failure = .configurationNotFound part ∧ r.configuration.section? part = none ∧
      stop.failure.isFatal = false) ∨ JudgedBySome r' stop.failure := by
  rcases hv : visit (connectStep b r.configuration part (selects all)) r.handles w with
    ⟨result, hs, w₁⟩
  have inPlace := visit_inPlace Handle.Evolves.refl connectStep_evolves hv
  simp only [connectSelected, hv] at he
  cases he
  have sound := hr.inPlace inPlace
  rcases visit_cases hv with
    ⟨done, -⟩ | ⟨t, before, before', name, h, h', after, w₂, same, parts, rfl, -, failed⟩
  · cases done
  · cases same
    have registered : (name, h) ∈ r.handles := by
      rw [parts]
      exact List.mem_append_right before List.mem_cons_self
    have named : h.name = name := hr.wellNamed.named _ registered
    have evolved := connectStep_evolves failed
    rcases connectStep_judged failed with absent | ⟨concerned, judged⟩
    · exact .inl absent
    · refine .inr ⟨name, h', sound.wellNamed.ordered.get?_eq_some_iff.2 ?_, named ▸ concerned,
        evolved.policy ▸ judged⟩
      exact List.mem_append_right before' List.mem_cons_self

theorem disconnectAll_mild {b : Backend ω σ κ} {r r' : Registry σ κ} {w w' : ω} {stop : Stop}
    (he : disconnectAll b r w = (.error stop, r', w')) : stop.failure.isFatal = false := by
  rcases hv : visit (disconnectStep b) r.handles w with ⟨result, hs, w₁⟩
  simp only [disconnectAll, hv] at he
  cases he
  rcases visit_cases hv with
    ⟨done, -⟩ | ⟨t, before, before', name, h, h', after, w₂, same, -, -, -, failed⟩
  · cases done
  · cases same
    exact disconnectStep_mild failed

/-- **The failure of an act is judged by the policy of the handle that it concerns.** -/
theorem act_judged {c : Configuration} {s : Service ω σ κ ο}
    (mild : ∀ h w o, Mild (s.operate h w o).1) {m : Stores ω σ κ} (hm : Sound c m.registry)
    {a : Act ω ο} {f : Failure} (he : (act s m a).1 = .error f) :
    a.Judges m (act s m a).2 f := by
  cases a with
  | newHandle name policy => cases he
  | load part =>
    obtain ⟨stop, failed, rfl⟩ := Handle.error_of_mapError he
    exact load_judged (Prod.ext failed rfl)
  | connectAll part =>
    obtain ⟨stop, failed, rfl⟩ := Handle.error_of_mapError he
    have bulk : connectSelected s.backend part (selects true) m.registry m.world =
        (.error stop, (act s m (.connectAll part)).2.registry,
          (act s m (.connectAll part)).2.world) := Prod.ext failed rfl
    exact connectSelected_judged hm bulk
  | connectAllAtStart part =>
    obtain ⟨stop, failed, rfl⟩ := Handle.error_of_mapError he
    have bulk : connectSelected s.backend part (selects false) m.registry m.world =
        (.error stop, (act s m (.connectAllAtStart part)).2.registry,
          (act s m (.connectAllAtStart part)).2.world) := Prod.ext failed rfl
    exact connectSelected_judged hm bulk
  | disconnectAll =>
    obtain ⟨stop, failed, rfl⟩ := Handle.error_of_mapError he
    exact disconnectAll_mild (Prod.ext failed rfl)
  | request name r =>
    simp only [act, request, get] at he
    cases registered : m.registry.handles.get? name with
    | none =>
      rw [registered] at he
      cases he
      exact .inl ⟨rfl, registered, rfl⟩
    | some h =>
      rw [registered] at he
      exact .inr ⟨h, registered, Handle.step_judged mild he⟩
  | elsewhere w => cases he

/-! ## Both kinds of stores -/

/-- Every failure of a handle is judged as `Request.Judges` says, in all of its life, and every
failure of a registry as `Act.Judges` says; looking a handle up never fails fatally. -/
structure FatalByPolicy (s : Service ω σ κ ο) : Prop where
  handle : ∀ (own : Configuration) (name : String) (policy : ConnectPolicy) (part : String)
    (serial : Nat) (w : ω) (past : List (Handle.Request ο)) (next : Handle.Request ο) (f : Failure),
    let now := Handle.run s own ⟨Handle.create name policy part serial, w⟩ past
    (Handle.step s own now next).1 = .error f →
      next.Judges own now.handle f ∧ now.handle.policy = policy
  registry : ∀ (c : Configuration) (part : String) (w : ω) (past : List (Act ω ο)) (next : Act ω ο)
    (f : Failure),
    let now := run s ⟨Registry.empty c part, w⟩ past
    (act s now next).1 = .error f → next.Judges now (act s now next).2 f
  get : ∀ (r : Registry σ κ) (name : String), Mild (r.get name)

theorem fatalByPolicy_of_service {s : Service ω σ κ ο}
    (mild : ∀ h w o, Mild (s.operate h w o).1) : FatalByPolicy s where
  handle := by
    intro own name policy part serial w past next f now failed
    exact ⟨Handle.step_judged mild failed, (Handle.run_evolves s own _ past).policy⟩
  registry := by
    intro c part w past next f now failed
    exact act_judged mild (run_sound past (.empty c part)) failed
  get := by
    intro r name f missing
    unfold get at missing
    split at missing
    · cases missing
    · cases missing
      rfl

/-- **Failures are fatal by policy.** A database handle or a Redis handle that cannot be brought
up, alone or with its registry, fails fatally exactly when it must connect; a section that is
not there, an entry that is no object, and all that happens to a handle in use or at its end
are never fatal. -/
theorem failures_fatal_by_policy [Url.HostNames] :
    (∀ {ω κ : Type} (d : Sql.Driver ω κ), FatalByPolicy (Sql.service d)) ∧
      (∀ {ω κ : Type} (d : KeyValue.Driver ω κ), FatalByPolicy (KeyValue.service d)) :=
  ⟨fun d => fatalByPolicy_of_service (Sql.Operation.run_mild d),
    fun d => fatalByPolicy_of_service (KeyValue.Operation.run_mild d)⟩

/-- A store without an address, which must connect or need not. -/
def addressless (must : Bool) : Configuration :=
  ⟨[("redis", .object [("a", .object [("must_connected", .bool must)])])]⟩

/-- A registry that is to load it. -/
def addresslessStores (must : Bool) : Stores KeyValue.Server KeyValue.Settings KeyValue.Client :=
  ⟨Registry.empty (addressless must) "redis", KeyValue.Server.fresh⟩

/-- Loading it fails, as its policy judges. -/
def LoadFails (must : Bool) : Prop :=
  ∃ f after, act (KeyValue.service KeyValue.Memory.driver) (addresslessStores must)
      (.load "redis") = (.error f, after) ∧ f.isFatal = must ∧
    Act.Judges (addresslessStores must) after f
      (.load "redis" : Act KeyValue.Server KeyValue.Operation)

theorem missing_address_fatal_by_policy : LoadFails true ∧ LoadFails false := by
  have judged (must : Bool) {f : Failure} (fatal : f.isFatal = must)
      (failed : (act (KeyValue.service KeyValue.Memory.driver) (addresslessStores must)
        (.load "redis")).1 = .error f) : LoadFails must :=
    ⟨f, _, Prod.ext failed rfl, fatal,
      (failures_fatal_by_policy.2 KeyValue.Memory.driver).registry (addressless must) "redis"
        KeyValue.Server.fresh [] (.load "redis") f failed⟩
  constructor
  · refine judged true (f := .mandatoryFieldMissing "a" "address field") rfl ?_
    decide +kernel
  · refine judged false
      (f := .configurationUnusable "a" "mandatory address field not exist") rfl ?_
    decide +kernel

end Registry

end NamedStores
