/-
Two ways to configure the handles of a section. Loading the section gives every handle its
settings before any is connected; handles that are only registered under the names of the entries
take theirs one by one, as the bulk connect reaches them. Both read the same records, so the
connector is asked for the same clients and both connect the same handles. Where the connecting
stops, the handles not yet reached have settings the first way and none the second.
-/
import Mathlib.Data.List.Sort
import NamedStores.KeyValue.Resp
import NamedStores.Proofs.Registry.Connect
import NamedStores.Proofs.Registry.LoadOutcome
import NamedStores.Proofs.Startup.Guarantee

namespace NamedStores

/-! ## Noting what the connector is asked for -/

/-- A world, and the settings with which a client was asked for, the latest first. -/
structure Noted (ω σ : Type) where
  world : ω
  asked : List σ

/-- The same stores, with a note of each call of the connector. -/
def Backend.noting {ω σ κ : Type} (b : Backend ω σ κ) : Backend (Noted ω σ) σ κ where
  kind := b.kind
  readSettings := b.readSettings
  connect s w :=
    let (result, world) := b.connect s w.world
    (result, ⟨world, s :: w.asked⟩)
  ping s client w :=
    let (result, world) := b.ping s client w.world
    (result, ⟨world, w.asked⟩)
  greet client w :=
    let (client, world) := b.greet client w.world
    (client, ⟨world, w.asked⟩)
  close client w :=
    let (result, world) := b.close client w.world
    (result, ⟨world, w.asked⟩)
  now w := b.now w.world

namespace Registry

variable {ω σ κ ο : Type}

/-- The settings with which a bulk connect asks for clients, in the order of its calls. -/
def asks (b : Backend ω σ κ) (part : String) (all : Bool) (m : Stores ω σ κ) : List σ :=
  (connectSelected b.noting part (selects all) m.registry ⟨m.world, []⟩).2.2.asked.reverse

/-! ## One handle -/

/-- A handle with settings and no client, after it was to be connected. -/
def opened (b : Backend ω σ κ) (s : σ) (h : Handle σ κ) (w : ω) :
    Except Stop Unit × Handle σ κ × ω :=
  match Handle.openClient b s w with
  | (.error refusal, w) => (.error (.handle h.name h.policy.must (.refused refusal) false), h, w)
  | (.ok client, w) =>
    (.ok (), { h with client := some client, connectedAt := some (b.now w) }, w)

/-- A handle that can take settings goes on with these, selected or not. -/
theorem connectStep_configures {b : Backend ω σ κ} {c : Configuration} {part : String}
    (all : Bool) {h h₁ : Handle σ κ} {s : σ} (hc : h.configure b c part = .ok (s, h₁))
    (settings : h₁.settings = some s) (client : h₁.client = none) (w : ω) :
    connectStep b c part (selects all) h w =
      if selects all h₁ then opened b s h₁ w else (.ok (), h₁, w) := by
  have applied : h.apply b c part = (.ok (), h₁) := by simp only [Handle.apply, hc]
  simp only [connectStep, applied, Handle.connect, client, Handle.configure_of_settings settings,
    opened]
  split
  · rcases Handle.openClient b s w with ⟨result, w₁⟩
    cases result <;> rfl
  · rfl

/-! ## Noting changes nothing -/

theorem openClient_noting (b : Backend ω σ κ) (s : σ) (w : ω) (asked : List σ) :
    Handle.openClient b.noting s ⟨w, asked⟩ =
      ((Handle.openClient b s w).1, ⟨(Handle.openClient b s w).2, s :: asked⟩) := by
  rcases hc : b.connect s w with ⟨result, w₁⟩
  cases result with
  | error refusal => simp only [Handle.openClient, Backend.noting, hc]
  | ok client =>
    rcases hp : b.ping s client w₁ with ⟨answer, w₂⟩
    cases answer <;> simp only [Handle.openClient, Backend.noting, hc, hp]

theorem connect_noting (b : Backend ω σ κ) (c : Configuration) (h : Handle σ κ) (w : ω)
    (asked : List σ) : ∃ asked', h.connect b.noting c ⟨w, asked⟩ =
      ((h.connect b c w).1, (h.connect b c w).2.1, ⟨(h.connect b c w).2.2, asked'⟩) := by
  have same : h.configure b.noting c h.sectionName = h.configure b c h.sectionName := rfl
  simp only [Handle.connect, same]
  split
  · exact ⟨asked, rfl⟩
  · split
    · exact ⟨asked, rfl⟩
    · next s h₁ _ =>
      refine ⟨s :: asked, ?_⟩
      rw [openClient_noting]
      rcases Handle.openClient b s w with ⟨result, w₁⟩
      cases result <;> rfl

theorem connectStep_noting (b : Backend ω σ κ) (c : Configuration) (part : String)
    (selected : Handle σ κ → Bool) (h : Handle σ κ) (w : ω) (asked : List σ) :
    ∃ asked', connectStep b.noting c part selected h ⟨w, asked⟩ =
      ((connectStep b c part selected h w).1, (connectStep b c part selected h w).2.1,
        ⟨(connectStep b c part selected h w).2.2, asked'⟩) := by
  have same : h.apply b.noting c part = h.apply b c part := rfl
  simp only [connectStep, same]
  split
  · exact ⟨asked, rfl⟩
  · next h₁ _ =>
    split
    · obtain ⟨asked', noted⟩ := connect_noting b c h₁ w asked
      refine ⟨asked', ?_⟩
      rw [noted]
      rcases h₁.connect b c w with ⟨result, h₂, w₁⟩
      cases result <;> rfl
    · exact ⟨asked, rfl⟩

theorem visit_noting (b : Backend ω σ κ) (c : Configuration) (part : String)
    (selected : Handle σ κ → Bool) (hs : List (String × Handle σ κ)) :
    ∀ (w : ω) (asked : List σ), ∃ asked',
      visit (connectStep b.noting c part selected) hs ⟨w, asked⟩ =
        ((visit (connectStep b c part selected) hs w).1,
          (visit (connectStep b c part selected) hs w).2.1,
          ⟨(visit (connectStep b c part selected) hs w).2.2, asked'⟩) := by
  induction hs with
  | nil => exact fun w asked => ⟨asked, rfl⟩
  | cons p hs ih =>
    intro w asked
    obtain ⟨name, h⟩ := p
    obtain ⟨asked', noted⟩ := connectStep_noting b c part selected h w asked
    rw [visit, visit, noted]
    rcases connectStep b c part selected h w with ⟨result, h', w₁⟩
    cases result with
    | error stop => exact ⟨asked', rfl⟩
    | ok u =>
      obtain ⟨asked'', later⟩ := ih w₁ asked'
      exact ⟨asked'', by simp only [later]⟩

/-- A bulk connect whose calls are noted is the bulk connect without. -/
theorem connectSelected_noting (b : Backend ω σ κ) (part : String)
    (selected : Handle σ κ → Bool) (r : Registry σ κ) (w : ω) (asked : List σ) :
    ∃ asked', connectSelected b.noting part selected r ⟨w, asked⟩ =
      ((connectSelected b part selected r w).1, (connectSelected b part selected r w).2.1,
        ⟨(connectSelected b part selected r w).2.2, asked'⟩) := by
  obtain ⟨asked', noted⟩ := visit_noting b r.configuration part selected r.handles w asked
  exact ⟨asked', by simp only [connectSelected, noted]⟩

/-! ## A handle with settings beside one without -/

/-- Two handles that differ in nothing but the section and the number they were registered with. -/
structure Alike (h h' : Handle σ κ) : Prop where
  name : h'.name = h.name
  policy : h'.policy = h.policy
  settings : h'.settings = h.settings
  client : h'.client = h.client
  connectedAt : h'.connectedAt = h.connectedAt

/-- Both handles have the settings of their record, and this status. -/
structure Settled (b : Backend ω σ κ) (c : Configuration) (part : String) (status : Status)
    (h h' : Handle σ κ) : Prop extends Alike h h' where
  reads : ∃ s, Handle.Reads b c part h.name s ∧ h.settings = some s
  status : h.status = status

/-- Both handles were passed: connected if they were selected, else configured. -/
def Reached (b : Backend ω σ κ) (c : Configuration) (part : String) (all : Bool)
    (h h' : Handle σ κ) : Prop :=
  Settled b c part (if selects all h then .connected else .configured) h h'

/-- A handle that has the settings of its record, beside one that is still to take them. -/
structure Unreached (b : Backend ω σ κ) (c : Configuration) (part : String)
    (h h' : Handle σ κ) : Prop where
  name : h'.name = h.name
  policy : h'.policy = h.policy
  reads : ∃ s, Handle.Reads b c part h.name s ∧ h.settings = some s
  eager : h.status = .configured
  lazy : h'.status = .unconfigured
  connectedAt : h.connectedAt = none ∧ h'.connectedAt = none

theorem configure_of_reads {b : Backend ω σ κ} {c : Configuration} {part : String}
    {h : Handle σ κ} {s : σ} (reads : Handle.Reads b c part h.name s) (missing : h.settings = none) :
    h.configure b c part = .ok (s, { h with settings := some s }) := by
  obtain ⟨record, found, read⟩ := reads
  simp only [Handle.configure, missing, found, read]

/-- The result that connecting comes to for both, and the handles after it. -/
inductive Connects (b : Backend ω σ κ) (c : Configuration) (part : String) (all : Bool)
    (h h' : Handle σ κ) : Except Stop Unit → Prop
  | passed : Reached b c part all h h' → Connects b c part all h h' (.ok ())
  | refused (refusal : Refusal) : selects all h = true → Settled b c part .configured h h' →
      Connects b c part all h h' (.error (.handle h.name h.policy.must (.refused refusal) false))

theorem Settled.opened {b : Backend ω σ κ} {c : Configuration} {part : String} {all : Bool}
    {h h' : Handle σ κ} (configured : Settled b c part .configured h h')
    (chosen : selects all h = true) (s : σ) (w : ω) :
    ∃ result k k' w', opened b s h w = (result, k, w') ∧ opened b s h' w = (result, k', w') ∧
      Connects b c part all k k' result := by
  rcases ho : Handle.openClient b s w with ⟨opening, w'⟩
  simp only [Registry.opened, ho]
  cases opening with
  | error refusal =>
    rw [configured.name, configured.policy]
    exact ⟨_, h, h', w', rfl, rfl, .refused refusal chosen configured⟩
  | ok client =>
    refine ⟨_, _, _, w', rfl, rfl, .passed ?_⟩
    have status : (if selects all h = true then Status.connected else .configured) = .connected :=
      if_pos chosen
    refine ⟨⟨configured.name, configured.policy, configured.settings, rfl, rfl⟩,
      configured.reads, ?_⟩
    exact (Handle.status_connected.2 rfl).trans status.symm

/-- Connecting the one and the other comes to the same. -/
theorem Unreached.connectStep {b : Backend ω σ κ} {c : Configuration} {part : String}
    {h h' : Handle σ κ} (u : Unreached b c part h h') (all : Bool) (w : ω) :
    ∃ result k k' w', connectStep b c part (selects all) h w = (result, k, w') ∧
      connectStep b c part (selects all) h' w = (result, k', w') ∧
      Connects b c part all k k' result := by
  obtain ⟨s, reads, settings⟩ := u.reads
  have client := (Handle.status_configured.1 u.eager).2
  obtain ⟨missing, client'⟩ := Handle.status_unconfigured.1 u.lazy
  have given : h.configure b c part = .ok (s, h) := Handle.configure_of_settings settings
  have step := connectStep_configures all given settings client w
  have reads' : Handle.Reads b c part h'.name s := u.name ▸ reads
  have step' := connectStep_configures all (configure_of_reads reads' missing) rfl client' w
  -- Once the second has taken its settings, the two are alike.
  have configured : Settled b c part .configured h { h' with settings := some s } :=
    ⟨⟨u.name, u.policy, settings.symm, client'.trans client.symm,
      u.connectedAt.2.trans u.connectedAt.1.symm⟩, ⟨s, reads, settings⟩, u.eager⟩
  have selected : selects all { h' with settings := some s } = selects all h := by
    rw [selects, selects, configured.policy]
  rw [step, step', selected]
  cases chosen : selects all h with
  | true => exact configured.opened chosen s w
  | false =>
    refine ⟨_, _, _, w, rfl, rfl, .passed ?_⟩
    rw [Reached, chosen]
    exact configured

/-! ## All handles -/

/-- How the handles stand beside each other after a bulk connect: all were passed, or one
failed, and those after it were not reached. -/
def AgreeUpTo (b : Backend ω σ κ) (c : Configuration) (part : String) (all : Bool)
    (hs hs' : List (String × Handle σ κ)) : Except Failure Unit → Prop
  | .ok _ => InPlace (Reached b c part all) hs hs'
  | .error f => ∃ before before' name h h' after after', ∃ refusal : Refusal,
      hs = before ++ (name, h) :: after ∧ hs' = before' ++ (name, h') :: after' ∧
      InPlace (Reached b c part all) before before' ∧
      selects all h = true ∧ Settled b c part .configured h h' ∧
      f = .connection h.name refusal.message refusal.suggestion h.policy.must ∧
      InPlace (Unreached b c part) after after'

theorem AgreeUpTo.cons {b : Backend ω σ κ} {c : Configuration} {part : String} {all : Bool}
    {hs hs' : List (String × Handle σ κ)} {result : Except Failure Unit} {name : String}
    {h h' : Handle σ κ} (reached : Reached b c part all h h')
    (agree : AgreeUpTo b c part all hs hs' result) :
    AgreeUpTo b c part all ((name, h) :: hs) ((name, h') :: hs') result := by
  cases result with
  | ok _ => exact List.Forall₂.cons ⟨rfl, reached⟩ agree
  | error f =>
    obtain ⟨before, before', name', k, k', after, after', refusal, rfl, rfl, passed, rest⟩ := agree
    exact ⟨(name, h) :: before, (name, h') :: before', name', k, k', after, after', refusal, rfl,
      rfl, .cons ⟨rfl, reached⟩ passed, rest⟩

/-- A bulk connect over handles with settings goes as one over handles that are to take them. -/
theorem visit_agrees {b : Backend ω σ κ} {c : Configuration} {part : String} (all : Bool)
    {hs hs' : List (String × Handle σ κ)} (unreached : InPlace (Unreached b c part) hs hs') :
    ∀ w, ∃ result ks ks' w', visit (connectStep b c part (selects all)) hs w = (result, ks, w') ∧
      visit (connectStep b c part (selects all)) hs' w = (result, ks', w') ∧
      AgreeUpTo b c part all ks ks' (result.mapError Stop.failure) := by
  induction unreached with
  | nil => exact fun w => ⟨.ok (), [], [], w, rfl, rfl, .nil⟩
  | @cons p p' hs hs' first rest ih =>
    intro w
    obtain ⟨name, h⟩ := p
    obtain ⟨name', h'⟩ := p'
    obtain ⟨rfl, u⟩ : name' = name ∧ Unreached b c part h h' := first
    obtain ⟨result, k, k', w₁, step, step', connects⟩ := u.connectStep all w
    simp only [visit, step, step']
    cases connects with
    | passed reached =>
      obtain ⟨result, ks, ks', w₂, visited, visited', agree⟩ := ih w₁
      exact ⟨result, (name', k) :: ks, (name', k') :: ks', w₂, by simp only [visited],
        by simp only [visited'], agree.cons reached⟩
    | refused refusal chosen configured =>
      exact ⟨_, _, _, w₁, rfl, rfl, [], [], name', k, k', hs, hs', refusal, rfl, rfl, .nil, chosen,
        configured, rfl, rest⟩

theorem connectSelected_agrees {b : Backend ω σ κ} {c : Configuration} {part : String} (all : Bool)
    {r r' : Registry σ κ} (hr : r.configuration = c) (hr' : r'.configuration = c)
    (unreached : InPlace (Unreached b c part) r.handles r'.handles) (w : ω) :
    ∃ result ks ks' w',
      connectSelected b part (selects all) r w = (result, { r with handles := ks }, w') ∧
      connectSelected b part (selects all) r' w = (result, { r' with handles := ks' }, w') ∧
      AgreeUpTo b c part all ks ks' (result.mapError Stop.failure) := by
  obtain ⟨result, ks, ks', w', visited, visited', agree⟩ := visit_agrees all unreached w
  refine ⟨result, ks, ks', w', ?_, ?_, agree⟩
  · simp only [connectSelected, hr, visited]
  · simp only [connectSelected, hr', visited']

/-! ## Registering every entry -/

/-- The names of the entries of a section with the policies of their records. -/
def policies (c : Configuration) (part : String) : List (String × ConnectPolicy) :=
  ((c.section? part).getD []).filterMap fun (name, entry) =>
    entry.record?.map fun record => (name, ConnectPolicy.ofRecord record)

/-- The acts that register a new handle for each of these. -/
def registrations (entries : List (String × ConnectPolicy)) : List (Act ω ο) :=
  entries.map fun (name, policy) => .newHandle name policy

theorem run_registrations_world (s : Service ω σ κ ο) (entries : List (String × ConnectPolicy)) :
    ∀ m : Stores ω σ κ, (run s m (registrations entries)).world = m.world := by
  induction entries with
  | nil => exact fun m => rfl
  | cons e entries ih => exact fun m => ih (act s m (.newHandle e.1 e.2)).2

/-- Each handle was there before or is new, and none is lost. -/
theorem run_registrations {s : Service ω σ κ ο} {c : Configuration}
    (entries : List (String × ConnectPolicy)) :
    ∀ {m : Stores ω σ κ}, Sound c m.registry →
      let after := (run s m (registrations entries)).registry
      (∀ name h, (name, h) ∈ after.handles → (name, h) ∈ m.registry.handles ∨
        ∃ policy part serial, (name, policy) ∈ entries ∧
          h = Handle.create name policy part serial) ∧
      ∀ name, name ∈ after.names ↔ name ∈ m.registry.names ∨ name ∈ entries.map (·.1) := by
  induction entries with
  | nil => exact fun _ => ⟨fun _ _ hm => .inl hm, by simp [registrations, run]⟩
  | cons e entries ih =>
    intro m sound after
    obtain ⟨new, policy⟩ := e
    obtain ⟨handles, names⟩ := ih (act_sound (s := s) sound (.newHandle new policy))
    have inserted {name : String} {h : Handle σ κ}
        (hm : (name, h) ∈ (m.registry.newHandle new policy).2.handles) :
        (name, h) = (new, (m.registry.newHandle new policy).1) ∨ (name, h) ∈ m.registry.handles :=
      ((SortedMap.mem_insert sound.wellNamed.ordered).1 hm).imp_right And.left
    have added (name : String) : name ∈ (m.registry.newHandle new policy).2.names ↔
        name = new ∨ name ∈ m.registry.names := by
      rw [mem_names, mem_names]
      by_cases same : name = new
      · subst same
        exact iff_of_true (by rw [newHandle, get?_register]; rfl) (.inl rfl)
      · rw [newHandle, register, SortedMap.get?_insert_other _ _ same, or_iff_right same]
    refine ⟨fun name h hm => ?_, fun name => (names name).trans ?_⟩
    · rcases handles name h hm with before | ⟨policy', part, serial, listed, created⟩
      · rcases inserted before with he | old
        · cases he
          exact .inr ⟨policy, _, _, List.mem_cons_self, rfl⟩
        · exact .inl old
      · exact .inr ⟨policy', part, serial, List.mem_cons_of_mem _ listed, created⟩
    · rw [List.map_cons, List.mem_cons, ← or_assoc, or_comm (a := name ∈ m.registry.names)]
      exact or_congr (added name) Iff.rfl

theorem InPlace.of_keys {R : Handle σ κ → Handle σ κ → Prop} {hs hs' : List (String × Handle σ κ)}
    (keys : hs'.map (·.1) = hs.map (·.1))
    (related : ∀ name h h', (name, h) ∈ hs → (name, h') ∈ hs' → R h h') : InPlace R hs hs' := by
  induction hs generalizing hs' with
  | nil => rw [List.map_eq_nil_iff.1 keys]; exact .nil
  | cons p hs ih =>
    cases hs' with
    | nil => cases keys
    | cons p' hs' =>
      obtain ⟨name, h⟩ := p
      obtain ⟨name', h'⟩ := p'
      rw [List.map_cons, List.map_cons, List.cons.injEq] at keys
      obtain ⟨rfl, keys⟩ := keys
      exact .cons ⟨rfl, related _ h h' List.mem_cons_self List.mem_cons_self⟩
        (ih keys fun n k k' hk hk' =>
          related n k k' (List.mem_cons_of_mem _ hk) (List.mem_cons_of_mem _ hk'))

theorem mem_policies {c : Configuration} {part : String} {records : Record}
    (present : c.section? part = some records) {name : String} {policy : ConnectPolicy} :
    (name, policy) ∈ policies c part ↔ ∃ record, (name, .object record) ∈ records ∧
      policy.GivenBy record := by
  rw [policies, present, Option.getD_some, List.mem_filterMap]
  constructor
  · rintro ⟨⟨name', entry⟩, hm, he⟩
    cases entry <;> cases he
    exact ⟨_, hm, ConnectPolicy.ofRecord_givenBy _⟩
  · rintro ⟨record, hm, given⟩
    rw [given.eq (ConnectPolicy.ofRecord_givenBy record)]
    exact ⟨(name, .object record), hm, rfl⟩

/-- What was loaded on the one side stands beside what was only registered on the other. -/
theorem unreached_of_loaded {s : Service ω σ κ ο} {c : Configuration} {part own own' : String}
    {records : Record} (ordered : SortedMap.Ordered records)
    (present : c.section? part = some records) {r : Registry σ κ}
    (loaded : Loaded s.backend part records (Registry.empty c own) r) {w : ω}
    {entries : List (String × ConnectPolicy)} (lists : ∀ e, e ∈ entries ↔ e ∈ policies c part) :
    InPlace (Unreached s.backend c part) r.handles
      (run s ⟨Registry.empty c own', w⟩ (registrations entries)).registry.handles := by
  have wellNamed := loaded.wellNamed .empty
  have sound : Sound c (Registry.empty c own' : Registry σ κ) := .empty c own'
  have sound' := run_sound (s := s) (m := ⟨_, w⟩) (registrations entries) sound
  obtain ⟨handles, names⟩ := run_registrations (s := s) (m := ⟨_, w⟩) entries sound
  refine .of_keys ?_ fun name h h' hm hm' => ?_
  · refine List.Pairwise.eq_of_mem_iff (SortedMap.ordered_iff.1 sound'.wellNamed.ordered)
      (SortedMap.ordered_iff.1 wellNamed.ordered) fun name => ?_
    have filled := names_of_fills (loaded.fills ordered) loaded.keepsOthers name
    refine (names name).trans (Iff.trans ?_ filled.symm)
    refine or_congr Iff.rfl ?_
    rw [List.mem_map, List.mem_map]
    constructor
    · rintro ⟨⟨_, policy⟩, hm, rfl⟩
      obtain ⟨record, entry, -⟩ := (mem_policies present).1 ((lists _).1 hm)
      exact ⟨_, entry, rfl⟩
    · rintro ⟨⟨_, entry⟩, hm, rfl⟩
      obtain ⟨record, _, hr, -⟩ := loaded.get?_entry ordered hm
      cases entry <;> cases hr
      have given := ConnectPolicy.ofRecord_givenBy record
      exact ⟨_, (lists _).2 ((mem_policies present).2 ⟨record, hm, given⟩), rfl⟩
  · obtain ⟨record, entry, fromRecord⟩ := loaded.entry_of_mem ordered wellNamed hm
    rcases handles name h' hm' with none | ⟨policy, _, serial, listed, rfl⟩
    · cases none
    · obtain ⟨record', entry', given⟩ := (mem_policies present).1 ((lists _).1 listed)
      cases ordered.eq_of_mem entry entry'
      obtain ⟨t, read, settings⟩ := fromRecord.settings
      have found := Configuration.record_of_mem present ordered entry rfl
      exact ⟨fromRecord.name.symm, given.eq fromRecord.policy,
        ⟨t, ⟨record, fromRecord.name ▸ found, read⟩, settings⟩, fromRecord.configured, rfl,
        fromRecord.connectedAt, rfl⟩

theorem asks_of_unreached {b : Backend ω σ κ} {c : Configuration} {part : String} (all : Bool)
    {m m' : Stores ω σ κ} (hr : m.registry.configuration = c)
    (hr' : m'.registry.configuration = c) (world : m'.world = m.world)
    (unreached : InPlace (Unreached b c part) m.registry.handles m'.registry.handles) :
    asks b part all m' = asks b part all m := by
  -- The records are read the same whether calls are noted or not.
  have noted : InPlace (Unreached b.noting c part) m.registry.handles m'.registry.handles :=
    List.Forall₂.imp (fun _ _ u => ⟨u.1, u.2.name, u.2.policy, u.2.reads, u.2.eager, u.2.lazy,
      u.2.connectedAt⟩) unreached
  obtain ⟨result, ks, ks', w', connected, connected', -⟩ :=
    connectSelected_agrees all hr hr' noted ⟨m.world, []⟩
  rw [asks, asks, world, connected, connected']

/-- **Configuring ahead and on demand agree.** Where a section can be loaded, a bulk connect
after loading it and one after registering its entries under any default section, in any order,
come to the same: the same result, the same calls of the connector with the same settings, the
same world, and the same handles, connected and configured alike. Only behind a handle that
failed they differ: there the loaded handles are configured, and the others not yet. -/
theorem lazy_connects_as_eager (s : Service ω σ κ ο) (c : Configuration) (ordered : c.Ordered)
    (part own own' : String) (w : ω)
    (loads : (act s ⟨Registry.empty c own, w⟩ (.load part)).1 = .ok ())
    (entries : List (String × ConnectPolicy)) (lists : ∀ e, e ∈ entries ↔ e ∈ policies c part)
    (all : Bool) :
    let eager := (act s ⟨Registry.empty c own, w⟩ (.load part)).2
    let lazy := run s ⟨Registry.empty c own', w⟩ (registrations entries)
    let (result, eager') := act s eager (.connectEach part all)
    let (result', lazy') := act s lazy (.connectEach part all)
    result' = result ∧ lazy'.world = eager'.world ∧
      asks s.backend part all lazy = asks s.backend part all eager ∧
      AgreeUpTo s.backend c part all eager'.registry.handles lazy'.registry.handles result := by
  intro eager lazy
  have selected (m : Stores ω σ κ) : act s m (.connectEach part all) =
      bulk (connectSelected s.backend part (selects all)) m := by
    cases all <;> rfl
  obtain ⟨records, present⟩ : ∃ records, c.section? part = some records := by
    cases absent : c.section? part with
    | none =>
      simp only [act, load, Registry.empty, absent] at loads
      cases loads
    | some records => exact ⟨records, rfl⟩
  rcases hl : loadEntries s.backend part records (Registry.empty c own) with ⟨result, r⟩
  have eager_eq : act s ⟨Registry.empty c own, w⟩ (.load part) =
      (result.mapError Stop.failure, ⟨r, w⟩) := by
    simp only [act, load_empty present, hl]
  have eager_is : eager = ⟨r, w⟩ := congrArg Prod.snd eager_eq
  obtain rfl : result = .ok () := by
    rw [eager_eq] at loads
    cases result with
    | ok _ => rfl
    | error stop => cases loads
  have loaded := loaded_of_ok (ordered part records present) present hl
  have unreached : InPlace (Unreached s.backend c part) r.handles lazy.registry.handles :=
    unreached_of_loaded (ordered part records present) present loaded lists
  have sound : Sound c lazy.registry := run_sound _ (.empty c own')
  have world : lazy.world = w := run_registrations_world s entries _
  obtain ⟨result, ks, ks', w', connected, connected', agree⟩ :=
    connectSelected_agrees all loaded.configuration sound.configuration unreached w
  have asked := asks_of_unreached all (m := ⟨r, w⟩) loaded.configuration sound.configuration world
    unreached
  rw [eager_is, selected, selected, bulk, bulk, world]
  simp only [connected, connected']
  exact ⟨trivial, trivial, asked, agree⟩

/-- Three stores; no server listens on the socket of the second. -/
def secondRefused : Configuration :=
  ⟨[("redis", .object [
    ("a", .object [("address", .string "unix:///run/a.sock")]),
    ("b", .object [("address", .string "unix:///run/b.sock"), ("must_connected", .bool true)]),
    ("c", .object [("address", .string "unix:///run/a.sock")])])]⟩

theorem secondRefused_ordered : secondRefused.Ordered := by
  intro part records present
  by_cases hp : "redis" = part
  · subst hp
    cases present
    exact SortedMap.ordered_iff.2 (by decide)
  · simp [secondRefused, Configuration.section?, SortedMap.get?, hp] at present

def serviceAtA : Service KeyValue.Server KeyValue.Settings KeyValue.Client KeyValue.Operation :=
  KeyValue.service (KeyValue.Resp.driver ⟨[Utf8.ofString "/run/a.sock"], []⟩)

/-- The stores with the section loaded. -/
def loadedAtA : Stores KeyValue.Server KeyValue.Settings KeyValue.Client :=
  (act serviceAtA ⟨Registry.empty secondRefused "redis", KeyValue.Server.fresh⟩ (.load "redis")).2

/-- The names of the section, in another order than the document has them. -/
def namesAtA : List (String × ConnectPolicy) :=
  [("c", ⟨false, false⟩), ("a", ⟨false, false⟩), ("b", ⟨false, true⟩)]

def registeredAtA : Stores KeyValue.Server KeyValue.Settings KeyValue.Client :=
  run serviceAtA ⟨Registry.empty secondRefused "elsewhere", KeyValue.Server.fresh⟩
    (registrations namesAtA)

theorem lazy_connects_up_to_refusal :
    secondRefused.Ordered ∧
      (act serviceAtA ⟨Registry.empty secondRefused "redis", KeyValue.Server.fresh⟩
        (.load "redis")).1 = .ok () ∧
      (∀ e, e ∈ namesAtA ↔ e ∈ policies secondRefused "redis") ∧
      (act serviceAtA registeredAtA (.connectEach "redis" true)).1.isOk = false ∧
      (act serviceAtA registeredAtA (.connectEach "redis" true)).1 =
        (act serviceAtA loadedAtA (.connectEach "redis" true)).1 ∧
      AgreeUpTo serviceAtA.backend secondRefused "redis" true
        (act serviceAtA loadedAtA (.connectEach "redis" true)).2.registry.handles
        (act serviceAtA registeredAtA (.connectEach "redis" true)).2.registry.handles
        (act serviceAtA loadedAtA (.connectEach "redis" true)).1 := by
  have loads : (act serviceAtA ⟨Registry.empty secondRefused "redis", KeyValue.Server.fresh⟩
      (.load "redis")).1 = .ok () := by decide +kernel
  have lists : ∀ e, e ∈ namesAtA ↔ e ∈ policies secondRefused "redis" :=
    fun e => (List.isPerm_iff.1 (by decide +kernel)).mem_iff
  obtain ⟨same, -, -, agree⟩ := lazy_connects_as_eager serviceAtA secondRefused
    secondRefused_ordered "redis" "redis" "elsewhere" KeyValue.Server.fresh loads namesAtA lists true
  exact ⟨secondRefused_ordered, loads, lists, by decide +kernel, same, agree⟩

end Registry

end NamedStores
