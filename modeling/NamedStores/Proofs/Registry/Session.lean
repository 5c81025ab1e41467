/-
A session is a run of the registry. Who keeps a handle may go on using it after another one was
registered under its name; for the registry that is something else changing the world. Every other
step is the act of the same name (`step_plays`), so what is said of all runs of acts is said of all
sessions (`session_plays_acts`).

The invariant is that a serial number stands for one handle, wherever it is known. It is carried
by the log of registrations: what has one serial number was registered by one entry, so under one
name, and a step of a handle is put in every place where that number is known.
-/
import NamedStores.Proofs.Registry.Listing
import NamedStores.Session

namespace NamedStores

namespace Registry

variable {σ κ : Type}

/-- A handle of the log, as its life has left it. -/
def Enrolled (log : List Enrolment) (h : Handle σ κ) : Prop :=
  ∃ e, log[h.serial]? = some e ∧ Handle.Evolves (e.handle h.serial) h

theorem LastUnder.enrolled {log : List Enrolment} {name : String} {h : Handle σ κ}
    (last : LastUnder log name h) : Enrolled log h := by
  obtain ⟨before, e, after, rfl, -, -, evolved⟩ := last
  have serial : h.serial = before.length := evolved.serial
  exact ⟨e, by rw [serial]; simp, serial ▸ evolved⟩

namespace Enrolled

variable {log : List Enrolment} {h h' : Handle σ κ}

theorem lt (enrolled : Enrolled log h) : h.serial < log.length := by
  obtain ⟨e, found, -⟩ := enrolled
  exact (List.getElem?_eq_some_iff.mp found).1

theorem append (enrolled : Enrolled log h) (more : List Enrolment) : Enrolled (log ++ more) h := by
  obtain ⟨e, found, evolved⟩ := enrolled
  exact ⟨e, by rw [List.getElem?_append_left (lt ⟨e, found, evolved⟩), found], evolved⟩

theorem evolves (enrolled : Enrolled log h) (evolved : Handle.Evolves h h') : Enrolled log h' := by
  obtain ⟨e, found, until_now⟩ := enrolled
  have serial : h'.serial = h.serial := evolved.serial
  exact ⟨e, serial ▸ found, serial ▸ until_now.trans evolved⟩

/-- Handles of one number have one name. -/
theorem name_eq (enrolled : Enrolled log h) (other : Enrolled log h')
    (same : h.serial = h'.serial) : h.name = h'.name := by
  obtain ⟨e, found, evolved⟩ := enrolled
  obtain ⟨e', found', evolved'⟩ := other
  rw [same, found'] at found
  cases found
  exact evolved.name.trans evolved'.name.symm

theorem wellKept (enrolled : Enrolled log h) : Handle.WellKept h := by
  obtain ⟨e, -, evolved⟩ := enrolled
  exact evolved.wellKept .create

end Enrolled

/-- A handle is put back where it is registered, and nowhere if it was replaced. -/
theorem put_cases (r : Registry σ κ) (h : Handle σ κ) :
    (∃ old, r.handles.get? h.name = some old ∧ old.serial = h.serial ∧
      r.put h = { r with handles := r.handles.insert h.name h }) ∨
    ((∀ old, r.handles.get? h.name = some old → old.serial ≠ h.serial) ∧ r.put h = r) := by
  unfold put
  cases found : r.handles.get? h.name with
  | none => exact .inr ⟨fun _ there => (by cases there), rfl⟩
  | some old =>
    by_cases same : old.serial = h.serial
    · exact .inl ⟨old, rfl, same, by simp only [if_pos same]⟩
    · refine .inr ⟨fun _ there => ?_, by simp only [if_neg same]⟩
      cases there
      exact same

/-- What a handle that was replaced becomes is put nowhere. -/
theorem put_of_replaced {r : Registry σ κ} {h h' : Handle σ κ}
    (apart : ∀ k, r.handles.get? h.name = some k → k.serial ≠ h.serial)
    (evolved : Handle.Evolves h h') : r.put h' = r := by
  rcases r.put_cases h' with ⟨old, found, same, -⟩ | ⟨-, put⟩
  · rw [evolved.name] at found
    exact absurd (same.trans evolved.serial) (apart old found)
  · exact put

end Registry

namespace Session

variable {ω σ κ ο : Type}

/-! ## Steps -/

/-- What is done in a session. A request goes to the handle kept under a name, or else to the one
registered under the other. -/
inductive Step (ο : Type) where
  | newHandle (name : String) (policy : ConnectPolicy) (hold : Option String)
  | hold (name key : String)
  | load (part : String)
  | connectAll (part : String)
  | connectAllAtStart (part : String)
  | disconnectAll
  | request (held : Option String) (name : String) (r : Handle.Request ο)

/-- A request to a handle. -/
def ask (s : Service ω σ κ ο) (m : Session ω σ κ) (h : Handle σ κ) :
    Handle.Request ο → Except Failure Unit × Session ω σ κ
  | .apply c part => m.live (fun h w =>
      let (result, h) := h.apply s.backend c part
      (result, h, w)) h
  | .connect => m.live (Handle.connect s.backend m.registry.configuration) h
  | .disconnect => m.live (Handle.disconnect s.backend) h
  | .operate o => m.run fun w => s.operate h w o

def step (s : Service ω σ κ ο) (m : Session ω σ κ) :
    Step ο → Except Failure Unit × Session ω σ κ
  | .newHandle name policy hold => (.ok (), m.newHandle name policy hold)
  | .hold name key =>
    match m.registry.get name with
    | .ok h => (.ok (), m.keep key h)
    | .error f => (.error f, m)
  | .load part => m.load s.backend part
  | .connectAll part => m.bulk (Registry.connectAll s.backend part)
  | .connectAllAtStart part => m.bulk (Registry.connectAllAtStart s.backend part)
  | .disconnectAll => m.bulk (Registry.disconnectAll s.backend)
  | .request held name r =>
    match m.find held name with
    | .ok h => m.ask s h r
    | .error f => (.error f, m)

/-- The session after all these steps. -/
def after (s : Service ω σ κ ο) (m : Session ω σ κ) (steps : List (Step ο)) : Session ω σ κ :=
  steps.foldl (fun m q => (step s m q).2) m

def stores (m : Session ω σ κ) : Stores ω σ κ := ⟨m.registry, m.world⟩

/-- The act of the registry that a step is. -/
inductive Plays (s : Service ω σ κ ο) (m : Session ω σ κ) : Step ο → Registry.Act ω ο → Prop
  | newHandle (name : String) (policy : ConnectPolicy) (hold : Option String) :
    Plays s m (.newHandle name policy hold) (.newHandle name policy)
  | hold (name key : String) : Plays s m (.hold name key) (.elsewhere m.world)
  | load (part : String) : Plays s m (.load part) (.load part)
  | connectAll (part : String) : Plays s m (.connectAll part) (.connectAll part)
  | connectAllAtStart (part : String) :
    Plays s m (.connectAllAtStart part) (.connectAllAtStart part)
  | disconnectAll : Plays s m .disconnectAll .disconnectAll
  | registered (held : Option String) (name : String) (r : Handle.Request ο) (h : Handle σ κ) :
    m.find held name = .ok h → m.registry.get h.name = .ok h →
    Plays s m (.request held name r) (.request h.name r)
  /-- A handle that was replaced changes the world alone. -/
  | replaced (held : Option String) (name : String) (r : Handle.Request ο) (h : Handle σ κ) :
    m.find held name = .ok h → (∀ k, m.registry.get h.name = .ok k → k.serial ≠ h.serial) →
    Plays s m (.request held name r)
      (.elsewhere (Handle.step s m.registry.configuration ⟨h, m.world⟩ r).2.world)
  | unknown (held : Option String) (name : String) (r : Handle.Request ο) (f : Failure) :
    m.find held name = .error f → Plays s m (.request held name r) (.request name r)

/-! ## What holds between steps -/

/-- A handle of a session: registered, or kept. -/
def Known (m : Session ω σ κ) (h : Handle σ κ) : Prop :=
  (∃ name, m.registry.get name = .ok h) ∨ ∃ key, (key, h) ∈ m.kept

theorem known_of_get? {m : Session ω σ κ} {name : String} {h : Handle σ κ}
    (found : m.registry.handles.get? name = some h) : Known m h :=
  .inl ⟨name, Registry.get_eq_ok.2 found⟩

theorem known_of_find {m : Session ω σ κ} {held : Option String} {name : String} {h : Handle σ κ}
    (found : m.find held name = .ok h) : Known m h := by
  unfold find at found
  split at found
  · next h' there =>
    cases found
    obtain ⟨key, -, kept⟩ := Option.bind_eq_some_iff.mp there
    exact .inr ⟨key, SortedMap.mem_of_get? kept⟩
  · exact .inl ⟨name, found⟩

/-- Where nothing is kept under the one name, the handle is the one registered under the other. -/
theorem get_of_find {m : Session ω σ κ} {held : Option String} {name : String} {f : Failure}
    (missing : m.find held name = .error f) : m.registry.get name = .error f := by
  unfold find at missing
  split at missing
  · cases missing
  · exact missing

/-- The registry follows its log, what is kept is of the log too, and wherever two handles have one
number they are the same. -/
structure Coherent (own : String) (c : Configuration) (log : List Registry.Enrolment)
    (m : Session ω σ κ) : Prop where
  sound : Registry.Sound c m.registry
  follows : Registry.Follows own log m.registry
  kept : ∀ p ∈ m.kept, Registry.Enrolled log p.2
  registered : ∀ p ∈ m.kept, ∀ h, m.registry.handles.get? p.2.name = some h →
    h.serial = p.2.serial → h = p.2
  one : ∀ p ∈ m.kept, ∀ q ∈ m.kept, p.2.serial = q.2.serial → p.2 = q.2

namespace Coherent

variable {own : String} {c : Configuration} {log : List Registry.Enrolment} {m : Session ω σ κ}
  {h h' : Handle σ κ}

theorem start (own : String) (c : Configuration) (w : ω) :
    Coherent own c [] (Session.start (Registry.empty c own : Registry σ κ) w) where
  sound := .empty c own
  follows := .empty c own
  kept _ none := absurd none List.not_mem_nil
  registered _ none := absurd none List.not_mem_nil
  one _ none := absurd none List.not_mem_nil

theorem enrolled (coherent : Coherent own c log m) (known : Known m h) :
    Registry.Enrolled log h := by
  rcases known with ⟨name, found⟩ | ⟨key, listed⟩
  · exact (coherent.follows.last name h (Registry.get_eq_ok.1 found)).enrolled
  · exact coherent.kept _ listed

/-- A handle that is registered is so under its own name. -/
theorem get_name (coherent : Coherent own c log m) {name : String}
    (found : m.registry.get name = .ok h) : m.registry.handles.get? h.name = some h := by
  rw [Registry.get_eq_ok] at found
  rwa [coherent.sound.name_of_get? found]

/-- **A number stands for one handle.** -/
theorem eq_of_serial (coherent : Coherent own c log m) (known : Known m h) (known' : Known m h')
    (same : h.serial = h'.serial) : h = h' := by
  have named := (coherent.enrolled known).name_eq (coherent.enrolled known') same
  rcases known with ⟨name, found⟩ | ⟨key, listed⟩ <;>
    rcases known' with ⟨name', found'⟩ | ⟨key', listed'⟩
  · have there := coherent.get_name found
    rw [named, coherent.get_name found'] at there
    exact (Option.some.inj there).symm
  · exact coherent.registered _ listed' h (named ▸ coherent.get_name found) same
  · exact (coherent.registered _ listed h' (named ▸ coherent.get_name found') same.symm).symm
  · exact coherent.one _ listed _ listed' same

/-! ### Registering and keeping -/

theorem keep (coherent : Coherent own c log m) (key : String) (known : Known m h) :
    Coherent own c log (m.keep key h) := by
  have listed {p : String × Handle σ κ} (hp : p ∈ m.kept.insert key h) : Known m p.2 := by
    rcases SortedMap.eq_or_mem_of_mem_insert hp with rfl | old
    · exact known
    · exact .inr ⟨p.1, old⟩
  exact ⟨coherent.sound, coherent.follows, fun p hp => coherent.enrolled (listed hp),
    fun p hp k found same => coherent.eq_of_serial (known_of_get? found) (listed hp) same,
    fun p hp q hq same => coherent.eq_of_serial (listed hp) (listed hq) same⟩

/-- A new handle has a number that nothing kept has. -/
theorem registers (coherent : Coherent own c log m) (name : String) (policy : ConnectPolicy) :
    Coherent own c (log ++ [⟨name, policy, own⟩])
      { m with registry := (m.registry.newHandle name policy).2 } := by
  have section_eq := coherent.follows.defaultSection
  refine ⟨coherent.sound.register name policy _, ?_, fun p hp => (coherent.kept p hp).append _,
    fun p hp k found same => ?_, coherent.one⟩
  · subst section_eq
    exact coherent.follows.register name policy m.registry.defaultSection
  · by_cases named : p.2.name = name
    · rw [named, Registry.newHandle, Registry.get?_register] at found
      cases found
      have new : m.registry.nextSerial = p.2.serial := same
      have old := (coherent.kept p hp).lt
      rw [coherent.follows.count] at new
      omega
    · have other : m.registry.handles.get? p.2.name = some k :=
        (SortedMap.get?_insert_other m.registry.handles _ named).symm.trans found
      exact coherent.registered p hp k other same

theorem newHandle (coherent : Coherent own c log m) (name : String) (policy : ConnectPolicy)
    (hold : Option String) :
    Coherent own c (log ++ [⟨name, policy, own⟩]) (m.newHandle name policy hold) := by
  have registered := coherent.registers name policy
  cases hold with
  | none => exact registered
  | some key =>
    refine registered.keep key (.inl ⟨name, Registry.get_eq_ok.2 ?_⟩)
    exact Registry.get?_register m.registry name policy _

/-! ### Steps of the registry -/

/-- What a kept handle becomes: the one registered with its number, if it is registered. -/
def renewed (r : Registry σ κ) (h : Handle σ κ) : Handle σ κ :=
  ((r.handles.get? h.name).filter (·.serial = h.serial)).getD h

theorem renewed_cases (r : Registry σ κ) (h : Handle σ κ) :
    (∃ k, r.handles.get? h.name = some k ∧ k.serial = h.serial ∧ renewed r h = k) ∨
    ((∀ k, r.handles.get? h.name = some k → k.serial ≠ h.serial) ∧ renewed r h = h) := by
  unfold renewed
  cases found : r.handles.get? h.name with
  | none => exact .inr ⟨fun _ there => (by cases there), rfl⟩
  | some k =>
    by_cases same : k.serial = h.serial
    · exact .inl ⟨k, rfl, same, by simp [Option.filter, same]⟩
    · refine .inr ⟨fun _ there => ?_, by simp [Option.filter, same]⟩
      cases there
      exact same

theorem renewed_serial (r : Registry σ κ) (h : Handle σ κ) : (renewed r h).serial = h.serial := by
  rcases renewed_cases r h with ⟨k, -, same, renewed⟩ | ⟨-, renewed⟩
  · rw [renewed, same]
  · rw [renewed]

/-- After any step of the registry what is kept is brought up to date. -/
theorem refresh (coherent : Coherent own c log m) (next : Stores ω σ κ)
    {more : List Registry.Enrolment} (sound : Registry.Sound c next.registry)
    (follows : Registry.Follows own (log ++ more) next.registry) :
    Coherent own c (log ++ more)
      { m with registry := next.registry, world := next.world }.refresh := by
  have listed {p : String × Handle σ κ}
      (hp : p ∈ { m with registry := next.registry, world := next.world }.refresh.kept) :
      ∃ q ∈ m.kept, p.2 = renewed next.registry q.2 := by
    obtain ⟨q, hq, rfl⟩ := List.mem_map.1 hp
    exact ⟨q, hq, rfl⟩
  refine ⟨sound, follows, fun p hp => ?_, fun p hp k found same => ?_, fun p hp q hq same => ?_⟩
  · obtain ⟨old, there, now⟩ := listed hp
    rw [now]
    rcases renewed_cases next.registry old.2 with ⟨k, found, -, renewed⟩ | ⟨-, renewed⟩
    · rw [renewed]
      exact (follows.last _ k found).enrolled
    · rw [renewed]
      exact (coherent.kept old there).append more
  · obtain ⟨old, there, now⟩ := listed hp
    have found : next.registry.handles.get? p.2.name = some k := found
    rw [now] at found same ⊢
    rcases renewed_cases next.registry old.2 with ⟨k', found', -, renewed⟩ | ⟨apart, renewed⟩
    · rw [renewed] at found ⊢
      rw [sound.name_of_get? found', found'] at found
      exact (Option.some.inj found).symm
    · rw [renewed] at found same
      exact absurd same (apart k found)
  · obtain ⟨old, there, now⟩ := listed hp
    obtain ⟨old', there', now'⟩ := listed hq
    rw [now, now', renewed_serial, renewed_serial] at same
    rw [now, now', coherent.one old there old' there' same]

/-! ### Steps of one handle -/

theorem withWorld (coherent : Coherent own c log m) (w : ω) :
    Coherent own c log { m with world := w } :=
  ⟨coherent.sound, coherent.follows, coherent.kept, coherent.registered, coherent.one⟩

/-- A handle is registered as it is known, or there is none of its number any more. -/
theorem registered_or (coherent : Coherent own c log m) (known : Known m h) :
    m.registry.handles.get? h.name = some h ∨
      ∀ k, m.registry.handles.get? h.name = some k → k.serial ≠ h.serial := by
  by_cases there : ∃ k, m.registry.handles.get? h.name = some k ∧ k.serial = h.serial
  · obtain ⟨k, found, same⟩ := there
    rw [coherent.eq_of_serial (known_of_get? found) known same] at found
    exact .inl found
  · exact .inr fun k found same => there ⟨k, found, same⟩

theorem put (coherent : Coherent own c log m) (known : Known m h)
    (evolved : Handle.Evolves h h') : Coherent own c log (m.put h') := by
  have registry : Registry.Sound c (m.registry.put h') ∧
      Registry.Follows own log (m.registry.put h') := by
    rcases coherent.registered_or known with found | apart
    · exact ⟨coherent.sound.put found evolved, coherent.follows.put coherent.sound found evolved⟩
    · rw [Registry.put_of_replaced apart evolved]
      exact ⟨coherent.sound, coherent.follows⟩
  refine ⟨registry.1, registry.2, fun p hp => ?_, fun p hp k found same => ?_,
    fun p hp q hq same => ?_⟩
  · obtain ⟨⟨key, old⟩, listed, rfl⟩ := List.mem_map.1 hp
    dsimp only
    split
    · exact (coherent.enrolled known).evolves evolved
    · exact coherent.kept _ listed
  · obtain ⟨⟨key, old⟩, listed, rfl⟩ := List.mem_map.1 hp
    have found : (m.registry.put h').handles.get? _ = some k := found
    dsimp only at found same ⊢
    -- Under the name of the handle stands the handle after the step, or one of another number.
    split at found <;> rename_i number
    · rw [if_pos number] at same ⊢
      rcases m.registry.put_cases h' with ⟨_, -, -, put⟩ | ⟨apart, put⟩
      · rw [put, SortedMap.get?_insert_self] at found
        exact (Option.some.inj found).symm
      · rw [put] at found
        exact absurd same (apart k found)
    · rw [if_neg number] at same ⊢
      rcases m.registry.put_cases h' with ⟨_, -, -, put⟩ | ⟨-, put⟩
      · rw [put] at found
        by_cases named : old.name = h'.name
        · rw [named, SortedMap.get?_insert_self] at found
          cases found
          exact absurd same.symm number
        · rw [SortedMap.get?_insert_other _ _ named] at found
          exact coherent.registered _ listed k found same
      · rw [put] at found
        exact coherent.registered _ listed k found same
  · obtain ⟨⟨key, old⟩, listed, rfl⟩ := List.mem_map.1 hp
    obtain ⟨⟨key', old'⟩, listed', rfl⟩ := List.mem_map.1 hq
    dsimp only at same ⊢
    split at same <;> rename_i number <;> split at same <;> rename_i number'
    · rw [if_pos number, if_pos number']
    · exact absurd same.symm number'
    · exact absurd same number
    · rw [if_neg number, if_neg number']
      exact coherent.one _ listed _ listed' same

/-- To put a handle back as it is changes nothing. -/
theorem put_self (coherent : Coherent own c log m) (known : Known m h) : m.put h = m := by
  have registry : m.registry.put h = m.registry := by
    rcases m.registry.put_cases h with ⟨old, found, same, put⟩ | ⟨-, put⟩
    · rw [coherent.eq_of_serial (known_of_get? found) known same] at found
      rw [put, coherent.sound.wellNamed.ordered.insert_get? found]
    · exact put
  have kept : (m.kept.map fun p => (p.1, if p.2.serial = h.serial then h else p.2)) = m.kept := by
    refine (List.map_congr_left fun p hp => ?_).trans (List.map_id _)
    split
    · next same => rw [← coherent.eq_of_serial (.inr ⟨p.1, hp⟩) known same]; rfl
    · rfl
  simp only [Session.put, registry, kept]

/-- A request is a step of the handle's life, put wherever the handle is known. -/
theorem ask_eq (coherent : Coherent own c log m) (s : Service ω σ κ ο) (known : Known m h)
    (r : Handle.Request ο) :
    let (result, next) := Handle.step s m.registry.configuration ⟨h, m.world⟩ r
    m.ask s h r = (result, { m with world := next.world }.put next.handle) := by
  cases r with
  | apply => rfl
  | connect => rfl
  | disconnect => rfl
  | operate o =>
    have back := (coherent.withWorld (s.operate h m.world o).2).put_self known
    exact congrArg (Prod.mk (s.operate h m.world o).1) back.symm

end Coherent

/-! ## Every step is an act -/

/-- **A step of a session is an act of the registry**: it leads to the same stores, with the same
result unless it is none of the registry's, and the session stays coherent. -/
theorem step_plays {own : String} {c : Configuration} (ordered : c.Ordered)
    {log : List Registry.Enrolment} {s : Service ω σ κ ο} {m : Session ω σ κ}
    (coherent : Coherent own c log m) (q : Step ο) :
    ∃ a, Plays s m q a ∧ (Registry.act s m.stores a).2 = (step s m q).2.stores ∧
      ((∀ w, a ≠ .elsewhere w) → (Registry.act s m.stores a).1 = (step s m q).1) ∧
      Coherent own c (log ++ Registry.enrolments s c own a) (step s m q).2 := by
  have sound (a : Registry.Act ω ο) : Registry.Sound c (Registry.act s m.stores a).2.registry :=
    Registry.act_sound coherent.sound a
  have follows (a : Registry.Act ω ο) :
      Registry.Follows own (log ++ Registry.enrolments s c own a)
        (Registry.act s m.stores a).2.registry :=
    Registry.act_follows ordered coherent.sound coherent.follows a
  cases q with
  | newHandle name policy hold =>
    refine ⟨_, .newHandle name policy hold, ?_, fun _ => rfl, coherent.newHandle name policy hold⟩
    cases hold <;> rfl
  | hold name key =>
    refine ⟨_, .hold name key, ?_, fun apart => absurd rfl (apart m.world), ?_⟩
    · simp only [step]
      cases m.registry.get name <;> rfl
    · rw [Registry.enrolments, List.append_nil, step]
      cases found : m.registry.get name with
      | error f => exact coherent
      | ok h => exact coherent.keep key (.inl ⟨name, found⟩)
  | load part =>
    exact ⟨_, .load part, rfl, fun _ => rfl,
      coherent.refresh (Registry.act s m.stores (.load part)).2 (sound (.load part)) (follows (.load part))⟩
  | connectAll part =>
    exact ⟨_, .connectAll part, rfl, fun _ => rfl,
      coherent.refresh (Registry.act s m.stores (.connectAll part)).2 (sound (.connectAll part)) (follows (.connectAll part))⟩
  | connectAllAtStart part =>
    exact ⟨_, .connectAllAtStart part, rfl, fun _ => rfl,
      coherent.refresh (Registry.act s m.stores (.connectAllAtStart part)).2 (sound (.connectAllAtStart part)) (follows (.connectAllAtStart part))⟩
  | disconnectAll =>
    exact ⟨_, .disconnectAll, rfl, fun _ => rfl,
      coherent.refresh (Registry.act s m.stores .disconnectAll).2 (sound .disconnectAll) (follows .disconnectAll)⟩
  | request held name r =>
    cases found : m.find held name with
    | error f =>
      have missing := get_of_find found
      refine ⟨_, .unknown held name r f found, ?_, fun _ => ?_, ?_⟩
      · simp only [Registry.act, Registry.request, stores, missing, step, found]
      · simp only [Registry.act, Registry.request, stores, missing, step, found]
      · rw [Registry.enrolments, List.append_nil, step, found]
        exact coherent
    | ok h =>
      have known := known_of_find found
      have asked := coherent.ask_eq s known r
      have evolved := Handle.step_evolves s m.registry.configuration ⟨h, m.world⟩ r
      have next : Coherent own c log (m.ask s h r).2 := by
        rw [asked]
        exact (coherent.withWorld _).put known evolved
      rcases coherent.registered_or known with there | apart
      · have got : m.registry.get h.name = .ok h := Registry.get_eq_ok.2 there
        refine ⟨_, .registered held name r h found got, ?_, fun _ => ?_, ?_⟩
        · simp only [Registry.act, Registry.request, stores, got, step, found, asked]
          rfl
        · simp only [Registry.act, Registry.request, stores, got, step, found, asked]
        · rw [Registry.enrolments, List.append_nil, step, found]
          exact next
      · have replaced (k : Handle σ κ) (got : m.registry.get h.name = .ok k) :=
          apart k (Registry.get_eq_ok.1 got)
        refine ⟨_, .replaced held name r h found replaced, ?_, fun other => absurd rfl (other _), ?_⟩
        · simp only [Registry.act, stores, step, found, asked, Session.put,
            Registry.put_of_replaced apart evolved]
        · rw [Registry.enrolments, List.append_nil, step, found]
          exact next

theorem after_plays {own : String} {c : Configuration} (ordered : c.Ordered)
    {s : Service ω σ κ ο} (steps : List (Step ο)) :
    ∀ {log : List Registry.Enrolment} {m : Session ω σ κ}, Coherent own c log m →
      ∃ acts, Registry.run s m.stores acts = (after s m steps).stores ∧
        Coherent own c (log ++ acts.flatMap (Registry.enrolments s c own)) (after s m steps) := by
  induction steps with
  | nil =>
    intro log m coherent
    exact ⟨[], rfl, by rwa [List.flatMap_nil, List.append_nil]⟩
  | cons q steps ih =>
    intro log m coherent
    obtain ⟨a, -, led, -, next⟩ := step_plays (s := s) ordered coherent q
    obtain ⟨acts, ran, last⟩ := ih next
    refine ⟨a :: acts, ?_, ?_⟩
    · exact (congrArg (Registry.run s · acts) led).trans ran
    · rwa [List.flatMap_cons, ← List.append_assoc]

/-- **A session plays the acts of a registry.** Whatever was done in it, its stores are those that
some acts lead to, every handle it knows is well kept, and what has one number is one handle. Of
each further step the act is known, and unless it is none of the registry's the results agree. -/
theorem session_plays_acts (s : Service ω σ κ ο) (c : Configuration) (ordered : c.Ordered)
    (own : String) (w : ω) (steps : List (Step ο)) :
    let now := after s (start (Registry.empty c own) w) steps
    (∃ acts, Registry.run s ⟨Registry.empty c own, w⟩ acts = now.stores) ∧
      (∀ h, Known now h → Handle.WellKept h) ∧
      (∀ h h', Known now h → Known now h' → h.serial = h'.serial → h = h') ∧
      ∀ q, ∃ a, Plays s now q a ∧ (Registry.act s now.stores a).2 = (step s now q).2.stores ∧
        ((∀ w, a ≠ .elsewhere w) → (Registry.act s now.stores a).1 = (step s now q).1) := by
  intro now
  obtain ⟨acts, ran, coherent⟩ := after_plays (s := s) ordered steps (Coherent.start own c w)
  refine ⟨⟨acts, ran⟩, fun h known => (coherent.enrolled known).wellKept,
    fun h h' => coherent.eq_of_serial, fun q => ?_⟩
  obtain ⟨a, plays, led, result, -⟩ := step_plays (s := s) ordered coherent q
  exact ⟨a, plays, led, result⟩

end Session

end NamedStores
