/-
The clients of a handle, accounted for. Whatever is asked of a handle and however its driver
answers, the calls it makes follow one pattern: a client is opened when all before it are let go,
is pinged, is closed at once if it does not answer, and otherwise used until a close of it is
done. `Leads` is that pattern as an automaton over the calls; a request keeps to it
(`Notes.step_reaches`), and what is wanted of a whole history is read off it (`Leads.accounted`).
-/
import NamedStores.Proofs.Handle.Watch

namespace NamedStores

/-! ## Histories -/

/-- Where the clients stand between two calls. At most one of them is out. -/
inductive Stage where
  | free
  /-- It was opened and has yet to answer. -/
  | fresh (client : Nat)
  /-- It did not answer and has yet to be closed. -/
  | failed (client : Nat)
  | held (client : Nat)

/-- The client that is out. -/
def Stage.client? : Stage → Option Nat
  | .free => none
  | .fresh i => some i
  | .failed i => some i
  | .held i => some i

/-- The calls that may be made in a stage, and the stage after them. A client that is opened gets
the number `n`. -/
inductive Next (n : Nat) : Stage → Call → Stage → Prop
  | refused : Next n .free (.opened none) .free
  | opened : Next n .free (.opened (some n)) (.fresh n)
  | answered (i : Nat) : Next n (.fresh i) (.pinged i true) (.held i)
  | unanswered (i : Nat) : Next n (.fresh i) (.pinged i false) (.failed i)
  | given_up (i : Nat) (done : Bool) : Next n (.failed i) (.closed i done) .free
  | pinged (i : Nat) (answered : Bool) : Next n (.held i) (.pinged i answered) (.held i)
  | used (i : Nat) : Next n (.held i) (.used i) (.held i)
  | kept (i : Nat) : Next n (.held i) (.closed i false) (.held i)
  | released (i : Nat) : Next n (.held i) (.closed i true) .free

/-- A history of calls, the latest first, leads to a stage. -/
inductive Leads : List Call → Stage → Prop
  | start : Leads [] .free
  | next {calls : List Call} {a b : Stage} {c : Call} :
    Leads calls a → Next calls.length a c b → Leads (c :: calls) b

/-- A client is held from a ping that it answers on, until a close of it is done. -/
def HeldAfter (calls : List Call) (i : Nat) : Prop :=
  .pinged i true ∈ calls ∧ .closed i true ∉ calls

/-- A client is let go when a close of it is done, or when it is closed without having been held. -/
def LetGo (calls : List Call) (i : Nat) : Prop :=
  .closed i true ∈ calls ∨ (.pinged i true ∉ calls ∧ ∃ done, .closed i done ∈ calls)

/-- What a history that leads to a stage says of each client. -/
structure Stands (calls : List Call) (stage : Stage) : Prop where
  numbered : ∀ i, .opened (some i) ∈ calls → i < calls.length
  out : ∀ i, stage.client? = some i → .opened (some i) ∈ calls
  called : ∀ c ∈ calls, ∀ i, c.on? = some i → .opened (some i) ∈ calls
  unheld : ∀ i, stage = .fresh i ∨ stage = .failed i →
    .pinged i true ∉ calls ∧ ∀ done, .closed i done ∉ calls
  held : ∀ i, stage = .held i → HeldAfter calls i
  gone : ∀ i, .opened (some i) ∈ calls → stage.client? = some i ∨ LetGo calls i

theorem Stands.start : Stands [] .free := by
  constructor <;> simp [Stage.client?]

namespace Next

variable {calls : List Call} {a b : Stage} {c : Call} {i : Nat}

/-- A call is made on the client that is out. -/
theorem out_of_on {n : Nat} (step : Next n a c b) (on : c.on? = some i) :
    a.client? = some i := by
  cases step with
  | refused => cases on
  | opened => cases on
  | _ => exact on

/-- A client that was let go stays so: no call is made on it any more. -/
theorem letGo (step : Next calls.length a c b) (h : Stands calls a) (gone : LetGo calls i) :
    LetGo (c :: calls) i := by
  rcases gone with done | ⟨unanswered, done, closed⟩
  · exact .inl (List.mem_cons_of_mem c done)
  · refine .inr ⟨fun answered => ?_, done, List.mem_cons_of_mem c closed⟩
    rcases List.mem_cons.mp answered with rfl | before
    · cases step with
      | answered => exact (h.unheld i (.inl rfl)).2 done closed
      | pinged => exact unanswered (h.held i rfl).1
    · exact unanswered before

/-- The client that was out is out still, unless it was let go by the call. -/
theorem out_or_letGo (step : Next calls.length a c b) (h : Stands calls a)
    (out : a.client? = some i) : b.client? = some i ∨ LetGo (c :: calls) i := by
  cases step with
  | refused => cases out
  | opened => cases out
  | given_up j done =>
    cases out
    have unanswered : .pinged i true ∉ Call.closed i done :: calls := by
      simp [(h.unheld i (.inr rfl)).1]
    exact .inr (.inr ⟨unanswered, done, List.mem_cons_self⟩)
  | released j =>
    cases out
    exact .inr (.inl List.mem_cons_self)
  | _ => exact .inl out

theorem stands (step : Next calls.length a c b) (h : Stands calls a) : Stands (c :: calls) b where
  numbered j opened := by
    rcases List.mem_cons.mp opened with rfl | before
    · cases step
      simp
    · exact Nat.lt_succ_of_lt (h.numbered j before)
  out j out := by
    cases step with
    | opened => cases out; exact List.mem_cons_self
    | refused => cases out
    | given_up => cases out
    | released => cases out
    | _ => exact List.mem_cons_of_mem _ (h.out j out)
  called d made j on := by
    refine List.mem_cons_of_mem c ?_
    rcases List.mem_cons.mp made with rfl | before
    · exact h.out j (step.out_of_on on)
    · exact h.called d before j on
  -- The number of a client just opened is new, so no call has been made on it.
  unheld j left := by
    have uncalled (d : Call) (on : d.on? = some calls.length) : d ∉ calls := fun made =>
      Nat.lt_irrefl _ (h.numbered _ (h.called d made _ on))
    cases step with
    | opened =>
      simp only [Stage.fresh.injEq, reduceCtorEq, or_false] at left
      subst left
      exact ⟨by simpa using uncalled (.pinged _ true) rfl,
        fun done => by simpa using uncalled (.closed _ done) rfl⟩
    | unanswered k =>
      simp only [reduceCtorEq, Stage.failed.injEq, false_or] at left
      subst left
      simpa using h.unheld k (.inl rfl)
    | _ => simp at left
  held j left := by
    cases step with
    | answered k =>
      cases left
      exact ⟨List.mem_cons_self, by simpa using (h.unheld j (.inl rfl)).2 true⟩
    | pinged k =>
      cases left
      exact ⟨List.mem_cons_of_mem _ (h.held j rfl).1, by simpa using (h.held j rfl).2⟩
    | used k => cases left; simpa [HeldAfter] using h.held j rfl
    | kept k => cases left; simpa [HeldAfter] using h.held j rfl
    | _ => cases left
  gone j opened := by
    rcases List.mem_cons.mp opened with rfl | before
    · cases step
      exact .inl rfl
    · rcases h.gone j before with out | gone
      · exact step.out_or_letGo h out
      · exact .inr (step.letGo h gone)

end Next

namespace Leads

variable {calls : List Call} {stage : Stage} {i : Nat}

theorem stands (h : Leads calls stage) : Stands calls stage := by
  induction h with
  | start => exact .start
  | next _ step ih => exact step.stands ih

theorem heldAfter_iff (h : Leads calls stage) : HeldAfter calls i ↔ stage = .held i := by
  have stands := h.stands
  constructor
  · rintro ⟨answered, unclosed⟩
    have opened := stands.called _ answered i rfl
    rcases stands.gone i opened with out | closed | ⟨unanswered, -⟩
    · cases stage with
      | free => cases out
      | fresh j => cases out; exact absurd answered (stands.unheld i (.inl rfl)).1
      | failed j => cases out; exact absurd answered (stands.unheld i (.inr rfl)).1
      | held j => cases out; rfl
    · exact absurd closed unclosed
    · exact absurd answered unanswered
  · exact stands.held i

theorem not_letGo_of_out (h : Leads calls stage) (out : stage.client? = some i) :
    ¬ LetGo calls i := by
  have stands := h.stands
  cases stage with
  | free => cases out
  | fresh j =>
    cases out
    have unclosed := (stands.unheld i (.inl rfl)).2
    rintro (closed | ⟨-, done, closed⟩)
    · exact unclosed true closed
    · exact unclosed done closed
  | failed j =>
    cases out
    have unclosed := (stands.unheld i (.inr rfl)).2
    rintro (closed | ⟨-, done, closed⟩)
    · exact unclosed true closed
    · exact unclosed done closed
  | held j =>
    cases out
    obtain ⟨answered, unclosed⟩ := stands.held i rfl
    rintro (closed | ⟨unanswered, -⟩)
    · exact unclosed closed
    · exact unanswered answered

/-- What was called before any call is a history too. -/
theorem before {later earlier : List Call} (h : Leads (later ++ earlier) stage) :
    ∃ a, Leads earlier a := by
  induction later generalizing stage with
  | nil => exact ⟨stage, h⟩
  | cons c later ih =>
    cases h with
    | next past _ => exact ih past

theorem at_call {later earlier : List Call} {c : Call} (h : Leads (later ++ c :: earlier) stage) :
    ∃ a b, Leads earlier a ∧ Next earlier.length a c b := by
  obtain ⟨b, past⟩ := h.before
  cases past with
  | next past step => exact ⟨_, b, past, step⟩

end Leads

/-- No client is leaked, opened beside another, or called after its time, in a history of calls at
whose end the handle holds the client `held`. -/
structure Accounted (calls : List Call) (held : Option Nat) : Prop where
  /-- What the handle holds is the client that the calls say is held. -/
  held_iff : ∀ i, HeldAfter calls i ↔ held = some i
  /-- The connector is asked for a client only while none is held. -/
  opens_alone : ∀ later earlier answer, calls = later ++ .opened answer :: earlier →
    ∀ i, ¬ HeldAfter earlier i
  /-- Each client that it gives is another. -/
  numbers_differ : ∀ later earlier i, calls = later ++ .opened (some i) :: earlier →
    .opened (some i) ∉ earlier
  /-- At no time are two clients held. -/
  one_held : ∀ later earlier i j, calls = later ++ earlier → HeldAfter earlier i →
    HeldAfter earlier j → i = j
  /-- A client that was opened is the one held or has been closed. -/
  none_lost : ∀ i, .opened (some i) ∈ calls → held = some i ∨ ∃ done, .closed i done ∈ calls
  /-- A call is made only on a client that has been opened and not been let go. -/
  none_after : ∀ later earlier c i, calls = later ++ c :: earlier → c.on? = some i →
    .opened (some i) ∈ earlier ∧ ¬ LetGo earlier i
  /-- A client on which a call is made is still held if it was held before. -/
  held_if_called : ∀ later between earlier c i, calls = later ++ c :: (between ++ earlier) →
    c.on? = some i → HeldAfter earlier i → HeldAfter (between ++ earlier) i

/-- The stage between requests. -/
def Stage.ofHeld : Option Nat → Stage
  | none => .free
  | some i => .held i

theorem Leads.accounted {calls : List Call} {held : Option Nat}
    (h : Leads calls (.ofHeld held)) : Accounted calls held where
  held_iff i := by
    rw [h.heldAfter_iff]
    cases held <;> simp [Stage.ofHeld]
  opens_alone later earlier answer whole i held := by
    rw [whole] at h
    obtain ⟨a, b, past, step⟩ := h.at_call
    cases past.heldAfter_iff.mp held
    cases step
  numbers_differ later earlier i whole opened := by
    rw [whole] at h
    obtain ⟨a, b, past, step⟩ := h.at_call
    cases step
    exact Nat.lt_irrefl _ (past.stands.numbered _ opened)
  one_held later earlier i j whole hi hj := by
    rw [whole] at h
    obtain ⟨a, past⟩ := h.before
    rw [past.heldAfter_iff] at hi hj
    rw [hi] at hj
    exact Stage.held.inj hj
  none_lost i opened := by
    rcases h.stands.gone i opened with out | closed | ⟨-, closed⟩
    · cases held with
      | none => cases out
      | some j => exact .inl out
    · exact .inr ⟨true, closed⟩
    · exact .inr closed
  none_after later earlier c i whole on := by
    rw [whole] at h
    obtain ⟨a, b, past, step⟩ := h.at_call
    have out := step.out_of_on on
    exact ⟨past.stands.out i out, past.not_letGo_of_out out⟩
  held_if_called later between earlier c i whole on held := by
    rw [whole] at h
    obtain ⟨a, b, past, step⟩ := h.at_call
    refine ⟨List.mem_append_right between held.1, fun closed => ?_⟩
    exact past.not_letGo_of_out (step.out_of_on on) (.inl closed)

/-! ## Requests -/

/-- A service notes each call of its driver, and `number` is the number of a client. -/
structure Notes {ω σ κ ο : Type} (s : Service (Watched ω) σ κ ο) (number : κ → Nat) : Prop where
  opened : ∀ t w, (s.backend.connect t w).2.calls =
    .opened ((s.backend.connect t w).1.toOption.map number) :: w.calls
  numbered : ∀ t w k, (s.backend.connect t w).1 = .ok k → number k = w.calls.length
  pinged : ∀ t k w, (s.backend.ping t k w).2.calls =
    .pinged (number k) (s.backend.ping t k w).1.isOk :: w.calls
  greeted : ∀ k w, number (s.backend.greet k w).1 = number k ∧
    ((s.backend.greet k w).2.calls = w.calls ∨
      (s.backend.greet k w).2.calls = .used (number k) :: w.calls)
  closed : ∀ k w, (s.backend.close k w).2.calls =
    .closed (number k) (s.backend.close k w).1.isOk :: w.calls
  operated : ∀ h w o, (s.operate h w o).2.calls = w.calls ∨
    ∃ k, h.client = some k ∧ ((s.operate h w o).2.calls = .used (number k) :: w.calls ∨
      ∃ answered, (s.operate h w o).2.calls = .pinged (number k) answered :: w.calls)

/-- From a history on, more calls lead to a stage. -/
structure Reaches (past calls : List Call) (stage : Stage) : Prop where
  leads : Leads calls stage
  grows : past <:+ calls

theorem Reaches.refl {calls : List Call} {stage : Stage} (h : Leads calls stage) :
    Reaches calls calls stage :=
  ⟨h, List.suffix_refl calls⟩

theorem Reaches.next {past calls : List Call} {a b : Stage} {c : Call} (h : Reaches past calls a)
    (step : Next calls.length a c b) : Reaches past (c :: calls) b :=
  ⟨.next h.leads step, h.grows.trans (List.suffix_cons c calls)⟩

namespace Notes

variable {ω σ κ ο : Type} {s : Service (Watched ω) σ κ ο} {number : κ → Nat}

/-- The stage in which a handle leaves its driver. -/
def stageOf (number : κ → Nat) (client : Option κ) : Stage :=
  .ofHeld (client.map number)

/-- Opening a client leads to that client held, or to none. -/
theorem openClient_reaches (n : Notes s number) {t : σ} {w : Watched ω}
    (h : Leads w.calls .free) :
    Reaches w.calls (Handle.openClient s.backend t w).2.calls
      (stageOf number (Handle.openClient s.backend t w).1.toOption) := by
  have opened := n.opened t w
  have numbered := n.numbered t w
  rw [Handle.openClient]
  rcases answer : s.backend.connect t w with ⟨e | k, w₁⟩
  · simp only [answer, Except.toOption, Option.map] at opened
    rw [opened]
    exact (Reaches.refl h).next .refused
  · simp only [answer, Except.toOption, Option.map] at opened numbered
    have fresh : Reaches w.calls w₁.calls (.fresh (number k)) := by
      rw [opened, numbered k rfl]
      exact (Reaches.refl h).next .opened
    have pinged := n.pinged t k w₁
    rcases reply : s.backend.ping t k w₁ with ⟨e | u, w₂⟩
    · simp only [reply] at pinged
      simp only [reply, n.closed, pinged]
      exact (fresh.next (.unanswered _)).next (.given_up _ _)
    · simp only [reply] at pinged
      have held : Reaches w.calls w₂.calls (.held (number k)) := by
        rw [pinged]
        exact fresh.next (.answered _)
      obtain ⟨same, silent | used⟩ := n.greeted k w₂
      · simp only [reply, silent, Except.toOption, stageOf, Option.map, same]
        exact held
      · simp only [reply, used, Except.toOption, stageOf, Option.map, same]
        exact held.next (.used _)

theorem client_of_configures {c : Configuration} {part : String} {h h' : Handle σ κ} {t : σ}
    (configures : Handle.Configures s.backend c part h t h') : h'.client = h.client := by
  rcases configures with ⟨-, rfl⟩ | ⟨-, -, rfl⟩ <;> rfl

/-- **A request keeps to the pattern**: from the client that is held before it, its calls lead to
the one held after it. -/
theorem step_reaches (n : Notes s number) (own : Configuration)
    {m : Handle.Moment (Watched ω) σ κ} (h : Leads m.world.calls (stageOf number m.handle.client))
    (r : Handle.Request ο) :
    Reaches m.world.calls (Handle.step s own m r).2.world.calls
      (stageOf number (Handle.step s own m r).2.handle.client) := by
  cases r with
  | apply c part =>
    rcases he : m.handle.apply s.backend c part with ⟨result, h'⟩
    simp only [Handle.step, he]
    rcases Handle.apply_cases he with ⟨e, -, -, rfl⟩ | ⟨t, configures, -⟩
    · exact .refl h
    · rw [client_of_configures configures]
      exact .refl h
  | connect =>
    rcases he : m.handle.connect s.backend own m.world with ⟨result, h', w'⟩
    simp only [Handle.step, he]
    rcases Handle.connect_cases he with ⟨-, -, rfl, rfl⟩ | ⟨-, e, -, -, rfl, rfl⟩ |
      ⟨hk, t, e, configures, opens, -⟩ | ⟨hk, t, h₁, k, -, opens, -, rfl⟩
    · exact .refl h
    · exact .refl h
    · have reached := n.openClient_reaches (t := t) (hk ▸ h)
      rw [opens] at reached
      rw [client_of_configures configures, hk]
      exact reached
    · have reached := n.openClient_reaches (t := t) (hk ▸ h)
      rw [opens] at reached
      exact reached
  | disconnect =>
    rcases he : m.handle.disconnect s.backend m.world with ⟨result, h', w'⟩
    simp only [Handle.step, he]
    rcases Handle.disconnect_cases he with ⟨-, -, rfl, rfl⟩ | ⟨k, hk, closes⟩
    · exact .refl h
    · have closed := n.closed k m.world
      rw [hk] at h
      rcases closes with ⟨e, close, -, rfl⟩ | ⟨close, -, rfl⟩
      · rw [close] at closed
        rw [closed, hk]
        exact (Reaches.refl h).next (.kept _)
      · rw [close] at closed
        rw [closed]
        exact (Reaches.refl h).next (.released _)
  | operate o =>
    simp only [Handle.step]
    rcases n.operated m.handle m.world o with silent | ⟨k, hk, used | ⟨answered, pinged⟩⟩
    · rw [silent]
      exact .refl h
    · rw [hk] at h ⊢
      rw [used]
      exact (Reaches.refl h).next (.used _)
    · rw [hk] at h ⊢
      rw [pinged]
      exact (Reaches.refl h).next (.pinged _ _)

theorem run_reaches (n : Notes s number) (own : Configuration) (rs : List (Handle.Request ο)) :
    ∀ {m : Handle.Moment (Watched ω) σ κ}, Leads m.world.calls (stageOf number m.handle.client) →
      Reaches m.world.calls (Handle.run s own m rs).world.calls
        (stageOf number (Handle.run s own m rs).handle.client) := by
  induction rs with
  | nil => exact fun h => .refl h
  | cons r rs ih =>
    intro m h
    have first := n.step_reaches own h r
    have rest := ih first.leads
    exact ⟨rest.leads, first.grows.trans rest.grows⟩

end Notes

/-! ## Both kinds of stores -/

theorem Sql.notes_watched [Url.HostNames] {ω κ : Type} (d : Sql.Driver ω κ) :
    Notes (Sql.service d.watched) (fun live => live.client.number) where
  opened t w := by
    simp only [Sql.service, Driver.backend, Driver.watched, Watched.enroll]
    cases (d.connect t.poolPlan w.world).1 <;> rfl
  numbered t w k opened := by
    simp only [Sql.service, Driver.backend, Driver.watched, Watched.enroll] at opened
    cases answer : (d.connect t.poolPlan w.world).1 with
    | error e => rw [answer] at opened; cases opened
    | ok client => rw [answer] at opened; cases opened; rfl
  pinged t live w := by
    simp only [Sql.service, Driver.backend, Driver.watched, Watched.note]
    cases (d.ping live.client.client w.world).1 <;> rfl
  greeted live w := ⟨rfl, .inr rfl⟩
  closed live w := rfl
  operated h w o := by
    obtain ⟨name, policy, part, serial, settings, held, connectedAt⟩ := h
    cases held with
    | none => cases o <;> exact .inl rfl
    | some live =>
      refine .inr ⟨live, rfl, ?_⟩
      cases o with
      | execute sql params => exact .inl rfl
      | query r => exact .inl rfl
      | ping => exact .inr ⟨_, rfl⟩

theorem KeyValue.calls_of_get {ω κ : Type} (d : KeyValue.Driver ω κ)
    {h : KeyValue.Handle (Numbered κ)} {k : Numbered κ} (held : h.client = some k)
    (shape : Json.Shape) (key : String) (w : Watched ω) :
    (KeyValue.Handle.get d.watched h shape key w).2.calls = .used k.number :: w.calls := by
  have noted : (d.watched.get k key w).2.calls = .used k.number :: w.calls := rfl
  simp only [KeyValue.Handle.get, Handle.liveClient, held]
  rcases answer : d.watched.get k key w with ⟨e | - | octets, v⟩
  · rwa [answer] at noted
  · rwa [answer] at noted
  · rw [answer] at noted
    dsimp only
    cases Json.ofOctetsAs shape octets <;> exact noted

theorem KeyValue.notes_watched [Url.HostNames] {ω κ : Type} (d : KeyValue.Driver ω κ) :
    Notes (KeyValue.service d.watched) Numbered.number where
  opened t w := by
    simp only [KeyValue.service, Driver.backend, Driver.watched, Watched.enroll]
    cases (d.connect t w.world).1 <;> rfl
  numbered t w k opened := by
    simp only [KeyValue.service, Driver.backend, Driver.watched, Watched.enroll] at opened
    cases answer : (d.connect t w.world).1 with
    | error e => rw [answer] at opened; cases opened
    | ok client => rw [answer] at opened; cases opened; rfl
  pinged t k w := by
    simp only [KeyValue.service, Driver.backend, Driver.watched, Watched.note]
    cases (d.ping k.client w.world).1 <;> rfl
  greeted k w := ⟨rfl, .inl rfl⟩
  closed k w := rfl
  operated h w o := by
    cases held : h.client with
    | none =>
      left
      cases o with
      | set key value expiration =>
        cases value <;> simp [KeyValue.service, Operation.run, KeyValue.Handle.set,
          Handle.liveClient, held]
      | _ => simp [KeyValue.service, Operation.run, KeyValue.Handle.get, KeyValue.Handle.mustGet,
          KeyValue.Handle.delete, KeyValue.Handle.ping, Handle.liveClient, held]
    | some k =>
      cases o with
      | get shape key => exact .inr ⟨k, rfl, .inl (calls_of_get d held shape key w)⟩
      | mustGet shape key =>
        have called := calls_of_get d held shape key w
        refine .inr ⟨k, rfl, .inl ?_⟩
        simp only [KeyValue.service, Operation.run, KeyValue.Handle.mustGet]
        rcases read : KeyValue.Handle.get d.watched h shape key w with ⟨e | - | v, w'⟩ <;>
          rwa [read] at called
      | set key value expiration =>
        cases value with
        | error message => exact .inl rfl
        | ok v =>
          refine .inr ⟨k, rfl, .inl ?_⟩
          simp only [KeyValue.service, Operation.run, KeyValue.Handle.set, Handle.liveClient, held]
          rfl
      | delete key =>
        refine .inr ⟨k, rfl, .inl ?_⟩
        simp only [KeyValue.service, Operation.run, KeyValue.Handle.delete, Handle.liveClient, held]
        rfl
      | ping =>
        refine .inr ⟨k, rfl, .inr ⟨(d.ping k.client w.world).1.isOk, ?_⟩⟩
        simp only [KeyValue.service, Operation.run, KeyValue.Handle.ping, Handle.liveClient, held]
        rfl

/-- In every life of a handle under watch, from its creation on, its clients are accounted for and
the history of calls only grows; and the life is the one it has without the watch. -/
def ClientsAccounted {ω σ κ κ' ο : Type} (s : Service ω σ κ ο)
    (watched : Service (Watched ω) σ κ' ο) (client : κ' → κ) (number : κ' → Nat) : Prop :=
  ∀ (own : Configuration) (name : String) (policy : ConnectPolicy) (part : String) (serial : Nat)
    (w : ω) (past future : List (Handle.Request ο)),
    let now := Handle.run watched own ⟨Handle.create name policy part serial, ⟨w, []⟩⟩ past
    Handle.run s own ⟨Handle.create name policy part serial, w⟩ past =
        Mirrors.moment Watched.world client now ∧
      Accounted now.world.calls (now.handle.client.map number) ∧
      now.world.calls <:+ (Handle.run watched own now future).world.calls

theorem clientsAccounted_of_service {ω σ κ κ' ο : Type} {s : Service ω σ κ ο}
    {watched : Service (Watched ω) σ κ' ο} {client : κ' → κ} {number : κ' → Nat}
    (mirrors : Mirrors watched s Watched.world client) (notes : Notes watched number) :
    ClientsAccounted s watched client number := by
  intro own name policy part serial w past future
  have lives := notes.run_reaches own past
    (m := ⟨Handle.create name policy part serial, ⟨w, []⟩⟩) .start
  exact ⟨mirrors.run own past ⟨Handle.create name policy part serial, ⟨w, []⟩⟩,
    lives.leads.accounted, (notes.run_reaches own future lives.leads).grows⟩

/-- **Clients are accounted for.** Whatever is asked of a database handle or a Redis handle, and
whatever its driver answers, a client is opened only while none is held, no two are held at a
time, each one that was opened is the one held or has been closed, and none is called any more
once it was let go. -/
theorem clients_accounted_for [Url.HostNames] :
    (∀ {ω κ : Type} (d : Sql.Driver ω κ), ClientsAccounted (Sql.service d) (Sql.service d.watched)
      Sql.Live.unwatched fun live => live.client.number) ∧
    (∀ {ω κ : Type} (d : KeyValue.Driver ω κ), ClientsAccounted (KeyValue.service d)
      (KeyValue.service d.watched) Numbered.client Numbered.number) :=
  ⟨fun d => clientsAccounted_of_service (Sql.mirrors_watched d) (Sql.notes_watched d),
    fun d => clientsAccounted_of_service (KeyValue.mirrors_watched d) (KeyValue.notes_watched d)⟩

end NamedStores
