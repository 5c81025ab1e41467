/-
What a policy decides about a handle. Of two handles that differ in whether they must connect, and
in nothing else, each takes settings, connects and disconnects exactly when the other does. The flag
has its say where a failure is reported: a record that cannot be used is a missing field for the one
and an unusable configuration for the other, and a refused connection is fatal for the one alone.

The steps commute with changing the flag, so two runs stay the same but for it, and the results are
compared by the trouble behind them, which both handles have.
-/
import NamedStores.Proofs.Handle.Life

namespace NamedStores

/-! ## Failures under the two policies -/

namespace Failure

/-- Whether the policy of a handle shows in the failure. -/
def isJudged : Failure → Bool
  | .mandatoryFieldMissing _ _ => true
  | .configurationUnusable _ _ => true
  | .connection _ _ _ _ => true
  | _ => false

theorem isFatal_of_unjudged {f : Failure} (h : f.isJudged = false) : f.isFatal = false := by
  cases f <;> first | rfl | cases h

/-- A failure of a handle that must connect, against that of a handle that need not. -/
inductive Eased (handle : String) : Failure → Failure → Prop
  | unusable (d : Defect) :
    Eased handle (.mandatoryFieldMissing handle d.field) (.configurationUnusable handle d.reason)
  | refused (message suggestion : String) :
    Eased handle (.connection handle message suggestion true)
      (.connection handle message suggestion false)
  | other {f : Failure} (unjudged : f.isJudged = false) : Eased handle f f

/-- Results of the two handles: both are well, or both failed. -/
inductive EasedResult (handle : String) : Except Failure Unit → Except Failure Unit → Prop
  | ok : EasedResult handle (.ok ()) (.ok ())
  | failed {f g : Failure} (eased : Eased handle f g) : EasedResult handle (.error f) (.error g)

/-- No failure that comes of it shows a policy. -/
def Unjudged {α : Type} (r : Except Failure α) : Prop := ∀ f, r = .error f → f.isJudged = false

section

variable {α β ε : Type}

theorem Unjudged.ok (a : α) : Unjudged (.ok a) := by
  intro f failed
  cases failed

theorem Unjudged.error {f : Failure} (h : f.isJudged = false) :
    Unjudged (.error f : Except Failure α) := by
  intro g failed
  cases failed
  exact h

theorem Unjudged.map {r : Except Failure α} (h : Unjudged r) (f : α → β) : Unjudged (r.map f) := by
  cases r with
  | error e => exact .error (h e rfl)
  | ok a => exact .ok (f a)

theorem Unjudged.mapError {f : ε → Failure} (h : ∀ e, (f e).isJudged = false) (r : Except ε α) :
    Unjudged (r.mapError f) := by
  cases r with
  | error e => exact .error (h e)
  | ok a => exact .ok a

theorem Unjudged.eased {handle : String} {r : Except Failure Unit} (h : Unjudged r) :
    EasedResult handle r r := by
  cases r with
  | error f => exact .failed (.other (h f rfl))
  | ok u => exact .ok

end

end Failure

namespace Trouble

open Failure

theorem failure_eased (t : Trouble) (handle : String) :
    Eased handle (t.failure handle true) (t.failure handle false) := by
  cases t with
  | setback e =>
    cases e with
    | sectionNotFound name isPresent => exact .other rfl
    | defect d => exact .unusable d
  | refused r => exact .refused r.message r.suggestion
  | unclosed message => exact .other rfl

theorem result_eased (r : Except Trouble Unit) (handle : String) : EasedResult handle
    (r.mapError (·.failure handle true)) (r.mapError (·.failure handle false)) := by
  cases r with
  | error t => exact .failed (t.failure_eased handle)
  | ok u => exact .ok

end Trouble

namespace Handle

open Failure

variable {ω σ κ ο : Type}

/-! ## Changing the flag -/

/-- The handle as one that must connect, or need not. -/
def under (must : Bool) (h : Handle σ κ) : Handle σ κ :=
  { h with policy := { h.policy with must := must } }

def Moment.under (must : Bool) (m : Moment ω σ κ) : Moment ω σ κ := ⟨m.handle.under must, m.world⟩

theorem configure_under (b : Backend ω σ κ) (c : Configuration) (part : String) (must : Bool)
    (h : Handle σ κ) : (h.under must).configure b c part =
      (h.configure b c part).map fun found => (found.1, found.2.under must) := by
  have settings_eq : (h.under must).settings = h.settings := rfl
  have name_eq : (h.under must).name = h.name := rfl
  simp only [configure, settings_eq, name_eq]
  cases h.settings with
  | some t => rfl
  | none =>
    cases c.record part h.name with
    | error e => rfl
    | ok record =>
      dsimp only
      cases b.readSettings record with
      | error d => rfl
      | ok t => rfl

theorem apply_under (b : Backend ω σ κ) (c : Configuration) (part : String) (must : Bool)
    (h : Handle σ κ) : (h.under must).apply b c part =
      ((h.apply b c part).1, (h.apply b c part).2.under must) := by
  simp only [apply, configure_under]
  cases h.configure b c part with
  | error e => rfl
  | ok found => rfl

theorem connect_under (b : Backend ω σ κ) (c : Configuration) (must : Bool) (h : Handle σ κ)
    (w : ω) : (h.under must).connect b c w =
      ((h.connect b c w).1, (h.connect b c w).2.1.under must, (h.connect b c w).2.2) := by
  have client_eq : (h.under must).client = h.client := rfl
  have section_eq : (h.under must).sectionName = h.sectionName := rfl
  simp only [connect, client_eq, section_eq, configure_under]
  cases h.client with
  | some k => rfl
  | none =>
    cases h.configure b c h.sectionName with
    | error e => rfl
    | ok found =>
      obtain ⟨t, h₁⟩ := found
      dsimp only [Except.map]
      rcases openClient b t w with ⟨e | k, w₁⟩ <;> rfl

theorem disconnect_under (b : Backend ω σ κ) (must : Bool) (h : Handle σ κ) (w : ω) :
    (h.under must).disconnect b w =
      ((h.disconnect b w).1, (h.disconnect b w).2.1.under must, (h.disconnect b w).2.2) := by
  have client_eq : (h.under must).client = h.client := rfl
  simp only [disconnect, client_eq]
  cases h.client with
  | none => rfl
  | some k =>
    dsimp only
    rcases b.close k w with ⟨e | u, w₁⟩ <;> rfl

/-! ## One request and many -/

/-- The data operations of a service do not look at the flag, nor fail in a way that shows it. -/
structure Unjudging (s : Service ω σ κ ο) : Prop where
  same : ∀ must h w o, s.operate (h.under must) w o = s.operate h w o
  unjudged : ∀ h w o, Unjudged (s.operate h w o).1

theorem step_under {s : Service ω σ κ ο} (fair : Unjudging s) (own : Configuration) (must : Bool)
    (m : Moment ω σ κ) (r : Request ο) :
    (step s own (m.under must) r).2 = (step s own m r).2.under must := by
  cases r with
  | apply c part => simp only [step, Moment.under, apply_under]
  | connect => simp only [step, Moment.under, connect_under]
  | disconnect => simp only [step, Moment.under, disconnect_under]
  | operate o => simp only [step, Moment.under, fair.same]

theorem step_eased {s : Service ω σ κ ο} (fair : Unjudging s) (own : Configuration)
    (m : Moment ω σ κ) (r : Request ο) : EasedResult m.handle.name
      (step s own (m.under true) r).1 (step s own (m.under false) r).1 := by
  cases r with
  | apply c part =>
    simp only [step, Moment.under, apply_under]
    exact Trouble.result_eased ..
  | connect =>
    simp only [step, Moment.under, connect_under]
    exact Trouble.result_eased ..
  | disconnect =>
    simp only [step, Moment.under, disconnect_under]
    exact Trouble.result_eased ..
  | operate o =>
    simp only [step, Moment.under, fair.same]
    exact (fair.unjudged m.handle m.world o).eased

theorem run_under {s : Service ω σ κ ο} (fair : Unjudging s) (own : Configuration) (must : Bool)
    (rs : List (Request ο)) :
    ∀ m : Moment ω σ κ, run s own (m.under must) rs = (run s own m rs).under must := by
  induction rs with
  | nil => exact fun _ => rfl
  | cons r rs ih =>
    intro m
    simp only [run, List.foldl_cons] at ih ⊢
    rw [step_under fair, ih]

theorem run_name {s : Service ω σ κ ο} {own : Configuration} (rs : List (Request ο)) :
    ∀ {m : Moment ω σ κ}, WellKept m.handle → (run s own m rs).handle.name = m.handle.name := by
  induction rs with
  | nil => exact fun _ => rfl
  | cons r rs ih =>
    exact fun hw => (ih (step_wellKept hw r)).trans (step_lawful hw r).same.1

theorem liveClient_unjudged (h : Handle σ κ) : Unjudged h.liveClient := by
  unfold liveClient
  split
  · exact .ok _
  · exact .error rfl

end Handle

/-! ## Both kinds of handles -/

namespace Sql

open Failure

variable {ω κ : Type}

theorem DriverError.failure_unjudged (e : DriverError) (name : String) :
    (e.failure name).isJudged = false := by
  cases e <;> rfl

theorem Handle.interrupted_unjudged (h : Handle κ) (milliseconds : Nat) (i : Interruption) :
    (Handle.interrupted h milliseconds i).isJudged = false := by
  cases i with
  | failed e => exact e.failure_unjudged h.name
  | timedOut => rfl

theorem Handle.execute_unjudged (d : Driver ω κ) (h : Handle κ) (sql : String) (params : List Param)
    (w : ω) : Unjudged (Handle.execute d h sql params w).1 := by
  unfold Handle.execute
  cases found : h.liveClient with
  | error f => exact .error (NamedStores.Handle.liveClient_unjudged h f found)
  | ok live => exact .mapError (Handle.interrupted_unjudged h _) _

theorem Handle.query_unjudged (d : Driver ω κ) (h : Handle κ) (r : Request) (w : ω) :
    Unjudged (Handle.query d h r w).1 := by
  unfold Handle.query
  cases found : h.liveClient with
  | error f => exact .error (NamedStores.Handle.liveClient_unjudged h f found)
  | ok live => exact .mapError (Handle.interrupted_unjudged h _) _

theorem Handle.ping_unjudged (d : Driver ω κ) (h : Handle κ) (w : ω) :
    Unjudged (Handle.ping d h w).1 := by
  unfold Handle.ping
  cases found : h.liveClient with
  | error f => exact .error (NamedStores.Handle.liveClient_unjudged h f found)
  | ok live => exact .mapError (fun _ => rfl) _

theorem Operation.run_unjudged (d : Driver ω κ) (h : Handle κ) (w : ω) (o : Operation) :
    Unjudged (Operation.run d h w o).1 := by
  cases o with
  | execute sql params => exact (Handle.execute_unjudged d h sql params w).map _
  | query r => exact (Handle.query_unjudged d h r w).map _
  | ping => exact Handle.ping_unjudged d h w

theorem service_unjudging [Url.HostNames] (d : Driver ω κ) : NamedStores.Handle.Unjudging
    (Sql.service d) where
  same must h w o := by cases o <;> rfl
  unjudged := Operation.run_unjudged d

end Sql

namespace KeyValue

open Failure

variable {ω κ : Type}

theorem Handle.get_unjudged (d : Driver ω κ) (h : Handle κ) (shape : Json.Shape) (key : String)
    (w : ω) : Unjudged (Handle.get d h shape key w).1 := by
  have live := NamedStores.Handle.liveClient_unjudged h
  unfold Handle.get
  cases found : h.liveClient with
  | error f => exact .error (live f found)
  | ok client =>
    dsimp only
    rcases d.get client key w with ⟨message | - | octets, w₁⟩
    · exact .error rfl
    · exact .ok _
    · dsimp only
      cases Json.ofOctetsAs shape octets with
      | ok v => exact .ok _
      | error message => exact .error rfl

theorem Handle.mustGet_unjudged (d : Driver ω κ) (h : Handle κ) (shape : Json.Shape) (key : String)
    (w : ω) : Unjudged (Handle.mustGet d h shape key w).1 := by
  have got := Handle.get_unjudged d h shape key w
  unfold Handle.mustGet
  rcases found : Handle.get d h shape key w with ⟨f | - | v, w₁⟩
  · exact .error (got f (by rw [found]))
  · exact .error rfl
  · exact .ok v

theorem Handle.set_unjudged (d : Driver ω κ) (h : Handle κ) (key : String)
    (value : Except String Json) (expiration : Option Nat) (w : ω) :
    Unjudged (Handle.set d h key value expiration w).1 := by
  unfold Handle.set
  cases value with
  | error message => exact .error rfl
  | ok v =>
    cases found : h.liveClient with
    | error f => exact .error (NamedStores.Handle.liveClient_unjudged h f found)
    | ok client => exact .mapError (fun _ => rfl) _

theorem Handle.delete_unjudged (d : Driver ω κ) (h : Handle κ) (key : String) (w : ω) :
    Unjudged (Handle.delete d h key w).1 := by
  unfold Handle.delete
  cases found : h.liveClient with
  | error f => exact .error (NamedStores.Handle.liveClient_unjudged h f found)
  | ok client => exact .mapError (fun _ => rfl) _

theorem Handle.ping_unjudged (d : Driver ω κ) (h : Handle κ) (w : ω) :
    Unjudged (Handle.ping d h w).1 := by
  unfold Handle.ping
  cases found : h.liveClient with
  | error f => exact .error (NamedStores.Handle.liveClient_unjudged h f found)
  | ok client => exact .mapError (fun _ => rfl) _

theorem Operation.run_unjudged (d : Driver ω κ) (h : Handle κ) (w : ω) (o : Operation) :
    Unjudged (Operation.run d h w o).1 := by
  cases o with
  | get shape key => exact (Handle.get_unjudged d h shape key w).map _
  | mustGet shape key => exact (Handle.mustGet_unjudged d h shape key w).map _
  | set key value expiration => exact Handle.set_unjudged d h key value expiration w
  | delete key => exact (Handle.delete_unjudged d h key w).map _
  | ping => exact Handle.ping_unjudged d h w

theorem service_unjudging [Url.HostNames] (d : Driver ω κ) : NamedStores.Handle.Unjudging
    (KeyValue.service d) where
  same must h w o := by cases o <;> rfl
  unjudged := Operation.run_unjudged d

end KeyValue

/-! ## Two runs -/

namespace Handle

open Failure

variable {ω σ κ ο : Type}

/-- Two handles in their worlds that are in the same place of their lives. -/
structure Moment.Alike (strict lenient : Moment ω σ κ) : Prop where
  status : strict.handle.status = lenient.handle.status
  settings : strict.handle.settings = lenient.handle.settings
  client : strict.handle.client = lenient.handle.client
  connectedAt : strict.handle.connectedAt = lenient.handle.connectedAt
  world : strict.world = lenient.world

theorem Moment.under_alike (m : Moment ω σ κ) (must must' : Bool) :
    Moment.Alike (m.under must) (m.under must') :=
  ⟨rfl, rfl, rfl, rfl, rfl⟩

/-- Two handles created alike, but that one must connect and the other need not, stay alike whatever
is asked of both, and of each request both have the same result but for the class of a failure. -/
def OnlyJudged (s : Service ω σ κ ο) : Prop :=
  ∀ (own : Configuration) (name part : String) (atStart : Bool) (serial : Nat) (w : ω)
    (past : List (Request ο)) (next : Request ο),
    let strict := run s own ⟨Handle.create name ⟨atStart, true⟩ part serial, w⟩ past
    let lenient := run s own ⟨Handle.create name ⟨atStart, false⟩ part serial, w⟩ past
    strict.Alike lenient ∧ EasedResult name (step s own strict next).1 (step s own lenient next).1 ∧
      (step s own strict next).2.Alike (step s own lenient next).2

theorem Unjudging.onlyJudged {s : Service ω σ κ ο} (fair : Unjudging s) : OnlyJudged s := by
  intro own name part atStart serial w past next
  let start : Moment ω σ κ := ⟨Handle.create name ⟨atStart, true⟩ part serial, w⟩
  let now := run s own start past
  have strict : run s own (start.under true) past = now.under true :=
    run_under fair own true past start
  have lenient : run s own (start.under false) past = now.under false :=
    run_under fair own false past start
  have named : now.handle.name = name := run_name past .create
  show (run s own (start.under true) past).Alike (run s own (start.under false) past) ∧
    EasedResult name (step s own (run s own (start.under true) past) next).1
      (step s own (run s own (start.under false) past) next).1 ∧
    (step s own (run s own (start.under true) past) next).2.Alike
      (step s own (run s own (start.under false) past) next).2
  rw [strict, lenient, step_under fair, step_under fair]
  exact ⟨now.under_alike true false, named ▸ step_eased fair own now next, Moment.under_alike _ _ _⟩

/-- **A policy decides only how a failure is reported.** It does not decide what a database handle
or a Redis handle does, whatever the document and the driver. -/
theorem policy_only_judges [Url.HostNames] :
    (∀ {ω κ : Type} (d : Sql.Driver ω κ), OnlyJudged (Sql.service d)) ∧
      (∀ {ω κ : Type} (d : KeyValue.Driver ω κ), OnlyJudged (KeyValue.service d)) :=
  ⟨fun d => (Sql.service_unjudging d).onlyJudged,
    fun d => (KeyValue.service_unjudging d).onlyJudged⟩

end Handle

end NamedStores
