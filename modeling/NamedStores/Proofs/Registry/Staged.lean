/-
Connecting in two stages: first the handles that connect at start, then all. A handle takes its
settings in the first stage whether it is selected or not, and a handle that holds a client is
passed over; so the second stage opens just what the first left out, and both together come to
the handles that connecting all of them at once comes to. After that every handle is connected,
and a further bulk connect has nothing left to do.
-/
import NamedStores.Proofs.Registry.Disconnect
import NamedStores.Proofs.Registry.Lazy

namespace NamedStores.Registry

variable {ω σ κ ο : Type}

/-! ## Which handle a call is for -/

/-- The calls of the connector that a bulk connect makes, in their order: for each call the name
of the handle it is for, and the settings handed over. -/
def openings (b : Backend ω σ κ) (c : Configuration) (part : String) (all : Bool) :
    List (String × Handle σ κ) → ω → List (String × σ)
  | [], _ => []
  | (name, h) :: hs, w =>
    let (result, _, noted) := connectStep b.noting c part (selects all) h ⟨w, []⟩
    noted.asked.map (name, ·) ++
      match result with
      | .ok _ => openings b c part all hs noted.world
      | .error _ => []

/-- The names of the handles that a bulk connect gets a client for, once for each call. -/
def openedNames (b : Backend ω σ κ) (part : String) (all : Bool) (m : Stores ω σ κ) :
    List String :=
  (openings b m.registry.configuration part all m.registry.handles m.world).map (·.1)

/-- Nothing but the notes is added to a step whose calls are noted. -/
theorem connectStep_notes (b : Backend ω σ κ) (c : Configuration) (part : String) (all : Bool)
    (h : Handle σ κ) (w : ω) : ∃ asked,
      connectStep b.noting c part (selects all) h ⟨w, []⟩ =
        ((connectStep b c part (selects all) h w).1, (connectStep b c part (selects all) h w).2.1,
          ⟨(connectStep b c part (selects all) h w).2.2, asked⟩) :=
  connectStep_noting b c part (selects all) h w []

/-- Whether a bulk connect is to get a client for a handle. -/
def lacks (all : Bool) (h : Handle σ κ) : Bool := selects all h && h.client.isNone

/-- A handle that is passed was asked a client for once if it lacked one, and else not at all. -/
theorem asked_of_passed {b : Backend ω σ κ} {c : Configuration} {part : String} {all : Bool}
    {h h' : Handle σ κ} {w w' : ω} {asked : List σ}
    (he : connectStep b.noting c part (selects all) h ⟨w, []⟩ = (.ok (), h', ⟨w', asked⟩)) :
    asked.length = if lacks all h then 1 else 0 := by
  rcases connectStep_cases he with ⟨e, -, -, -, failed⟩ | ⟨s, h₁, hc, he⟩
  · cases failed
  · have policy : selects all h₁ = selects all h := by
      rw [selects, selects, hc.evolves.policy]
    have client : h₁.client = h.client := by
      rcases hc with ⟨-, rfl⟩ | ⟨-, -, rfl⟩ <;> rfl
    rcases connectStep_of_settings hc.settings he with
      ⟨-, -, same, reason⟩ | ⟨-, -, refusal, -, -, failed⟩ | ⟨chosen, missing, k, opened, -, -⟩
    · cases same
      rw [policy, client] at reason
      rw [lacks, if_neg]
      · rfl
      · rcases reason with passed_over | held
        · simp [passed_over]
        · cases hk : h.client <;> simp [hk] at held ⊢
    · cases failed
    · rw [openClient_noting] at opened
      have once : [s] = asked := congrArg (fun r => r.2.asked) opened
      rw [← once, lacks, ← policy, ← client, chosen, missing]
      rfl

/-- A bulk connect that passes all handles gets a client for those that lack one, once each. -/
theorem openings_names {b : Backend ω σ κ} {c : Configuration} {part : String} {all : Bool}
    {hs hs' : List (String × Handle σ κ)} {w w' : ω}
    (hv : Visits (connectStep b c part (selects all)) hs w hs' w') :
    (openings b c part all hs w).map (·.1) =
      (hs.filter fun p => lacks all p.2).map (·.1) := by
  induction hv with
  | nil => rfl
  | @cons name h h' hs hs' w w₁ w' made _ ih =>
    obtain ⟨asked, noted⟩ := connectStep_notes b c part all h w
    rw [made] at noted
    have once := asked_of_passed noted
    simp only [openings, noted, List.map_append, ih, List.map_map, List.filter_cons]
    cases lacking : lacks all h with
    | true =>
      rw [lacking, if_pos rfl] at once
      obtain ⟨s, rfl⟩ := List.length_eq_one_iff.1 once
      rfl
    | false =>
      rw [lacking, if_neg Bool.false_ne_true] at once
      rw [List.length_eq_zero_iff.1 once]
      rfl

/-! ## Nothing left to do -/

/-- Every handle is connected. -/
def AllConnected (hs : List (String × Handle σ κ)) : Prop := ∀ p ∈ hs, p.2.status = .connected

theorem connectStep_connected (b : Backend ω σ κ) (c : Configuration) (part : String) (all : Bool)
    {h : Handle σ κ} (hw : Handle.WellKept h) (connected : h.status = .connected) (w : ω) :
    connectStep b c part (selects all) h w = (.ok (), h, w) := by
  have held : h.client.isSome = true := Handle.status_connected.1 connected
  obtain ⟨client, hk⟩ := Option.isSome_iff_exists.1 held
  obtain ⟨s, hs⟩ := Option.isSome_iff_exists.1 (hw.settings_of_client held)
  have applied : h.apply b c part = (.ok (), h) := by
    simp only [Handle.apply, Handle.configure_of_settings hs]
  have passed : h.connect b c w = (.ok (), h, w) := by simp only [Handle.connect, hk]
  simp only [connectStep, applied, passed, ite_self]

theorem visit_connected (b : Backend ω σ κ) (c : Configuration) (part : String) (all : Bool)
    {hs : List (String × Handle σ κ)} (hw : ∀ p ∈ hs, Handle.WellKept p.2)
    (connected : AllConnected hs) (w : ω) :
    Visits (connectStep b c part (selects all)) hs w hs w := by
  induction hs with
  | nil => exact .nil w
  | cons p hs ih =>
    obtain ⟨name, h⟩ := p
    exact .cons
      (connectStep_connected b c part all (hw _ List.mem_cons_self) (connected _ List.mem_cons_self) w)
      (ih (fun p hp => hw p (List.mem_cons_of_mem _ hp))
        fun p hp => connected p (List.mem_cons_of_mem _ hp))

theorem visit_of_visits {τ : Type} {step : Handle σ κ → ω → Except τ Unit × Handle σ κ × ω}
    {hs hs' : List (String × Handle σ κ)} {w w' : ω} (hv : Visits step hs w hs' w') :
    visit step hs w = (.ok (), hs', w') := by
  induction hv with
  | nil => rfl
  | cons made _ ih => simp only [visit, made, ih]

/-- A bulk connect changes nothing, asks for no client, and leaves the world as it is, whatever
section it is given and whichever handles it selects. -/
def NothingToConnect (s : Service ω σ κ ο) (m : Stores ω σ κ) : Prop :=
  ∀ (part : String) (all : Bool), act s m (.connectEach part all) = (.ok (), m) ∧
    openedNames s.backend part all m = []

theorem nothingToConnect_of_connected (s : Service ω σ κ ο) {c : Configuration} {m : Stores ω σ κ}
    (hm : Sound c m.registry) (connected : AllConnected m.registry.handles) :
    NothingToConnect s m := by
  intro part all
  have visited := visit_connected s.backend m.registry.configuration part all hm.wellKept connected
    m.world
  constructor
  · have whole : connectSelected s.backend part (selects all) m.registry m.world =
        (.ok (), m.registry, m.world) := by
      simp only [connectSelected, visit_of_visits visited]
    cases all <;> exact congrArg (fun r => (r.1.mapError Stop.failure, Stores.mk r.2.1 r.2.2)) whole
  · rw [openedNames, openings_names visited, List.filter_eq_nil_iff.2, List.map_nil]
    intro p hp
    have held : p.2.client.isSome = true := Handle.status_connected.1 (connected p hp)
    rw [lacks, Option.isNone_eq_false_iff.2 held, Bool.and_false]
    exact Bool.false_ne_true

/-! ## Two stages beside one -/

theorem InPlace.mem_left {R : Handle σ κ → Handle σ κ → Prop} {hs hs' : List (String × Handle σ κ)}
    (place : InPlace R hs hs') {name : String} {h : Handle σ κ} (hm : (name, h) ∈ hs) :
    ∃ h', (name, h') ∈ hs' ∧ R h h' := by
  induction place with
  | nil => cases hm
  | @cons p q hs hs' hp _ ih =>
    rcases List.mem_cons.1 hm with rfl | later
    · exact ⟨q.2, List.mem_cons.2 (.inl (Prod.ext hp.1.symm rfl)), hp.2⟩
    · obtain ⟨h', found, related⟩ := ih later
      exact ⟨h', List.mem_cons_of_mem q found, related⟩

/-- What two lists have to do with the same third, place by place, they have to do with each
other. -/
theorem InPlace.beside {R S T : Handle σ κ → Handle σ κ → Prop}
    {hs ks ls : List (String × Handle σ κ)} (first : InPlace R hs ks) (second : InPlace S hs ls)
    (both : ∀ h k l, R h k → S h l → T k l) : InPlace T ks ls := by
  induction first generalizing ls with
  | nil =>
    cases second
    exact .nil
  | cons place _ ih =>
    cases second with
    | cons place' later =>
      exact .cons ⟨place'.1.trans place.1.symm, both _ _ _ place.2 place'.2⟩ (ih later)

theorem InPlace.trans {R S T : Handle σ κ → Handle σ κ → Prop}
    {hs ks ls : List (String × Handle σ κ)} (first : InPlace R hs ks) (second : InPlace S ks ls)
    (both : ∀ h k l, R h k → S k l → T h l) : InPlace T hs ls := by
  induction first generalizing ls with
  | nil =>
    cases second
    exact .nil
  | cons place _ ih =>
    cases second with
    | cons place' later =>
      exact .cons ⟨place'.1.trans place.1, both _ _ _ place.2 place'.2⟩ (ih later)

theorem reads_unique {b : Backend ω σ κ} {c : Configuration} {part name : String} {s s' : σ}
    (first : Handle.Reads b c part name s) (second : Handle.Reads b c part name s') : s' = s := by
  obtain ⟨record, found, read⟩ := first
  obtain ⟨record', found', read'⟩ := second
  cases found.symm.trans found'
  cases read.symm.trans read'
  rfl

theorem Takes.unique {b : Backend ω σ κ} {c : Configuration} {part : String} {h k l : Handle σ κ}
    (first : Takes b c part h k) (second : Takes b c part h l) : l.settings = k.settings := by
  rcases first with ⟨there, same⟩ | ⟨missing, s, reads, taken⟩
  · rcases second with ⟨-, same'⟩ | ⟨missing, -, -, -⟩
    · exact same'.trans same.symm
    · rw [missing] at there
      cases there
  · rcases second with ⟨there, -⟩ | ⟨-, s', reads', taken'⟩
    · rw [missing] at there
      cases there
    · rw [taken, taken', reads_unique reads reads']

/-- Two handles of one name and policy with the same settings, in the same state. -/
structure SameState (h h' : Handle σ κ) : Prop where
  name : h'.name = h.name
  policy : h'.policy = h.policy
  settings : h'.settings = h.settings
  status : h'.status = h.status

/-- A handle before the first stage, and after both. -/
structure PassesTwice (b : Backend ω σ κ) (c : Configuration) (part : String)
    (h h' : Handle σ κ) : Prop where
  evolves : Handle.Evolves h h'
  takes : Takes b c part h h'
  connected : h'.status = .connected

theorem passesTwice {b : Backend ω σ κ} {c : Configuration} {part : String} {h k l : Handle σ κ}
    (first : Passes b c part false h k) (second : Passes b c part true k l) :
    PassesTwice b c part h l := by
  refine ⟨first.evolves.trans second.evolves, ?_, second.connected rfl⟩
  have kept : l.settings = k.settings := by
    rcases second.takes with ⟨-, same⟩ | ⟨missing, -⟩
    · exact same
    · have there := first.configured
      rw [missing] at there
      cases there
  have taken := first.takes
  rwa [Takes, ← kept] at taken

theorem sameState {b : Backend ω σ κ} {c : Configuration} {part : String} {h d l : Handle σ κ}
    (direct : Passes b c part true h d) (staged : PassesTwice b c part h l) : SameState d l where
  name := staged.evolves.name.trans direct.evolves.name.symm
  policy := staged.evolves.policy.trans direct.evolves.policy.symm
  settings := direct.takes.unique staged.takes
  status := staged.connected.trans (direct.connected rfl).symm

/-- The two stages together get a client for a handle that has none, and only for such. -/
theorem lacks_once {b : Backend ω σ κ} {c : Configuration} {part : String} {h k : Handle σ κ}
    (first : Passes b c part false h k) :
    (if lacks false h then 1 else 0) + (if lacks true k then 1 else 0) =
      if h.status = .connected then 0 else 1 := by
  cases hk : h.client with
  | some client =>
    have held : h.client.isSome = true := by rw [hk]; rfl
    rw [if_pos (Handle.status_connected.2 held), first.held held]
    simp only [lacks, hk, Option.isNone_some, Bool.and_false, Bool.false_eq_true, if_false]
  | none =>
    have idle : ¬ h.status = .connected := by
      rw [Handle.status_connected, hk]
      exact Bool.false_ne_true
    rw [if_neg idle]
    cases chosen : selects false h with
    | true =>
      have held := Handle.status_connected.1 (first.connected chosen)
      simp only [lacks, chosen, hk, Option.isNone_none, Bool.and_self, if_true,
        Option.isNone_eq_false_iff.2 held, Bool.and_false, Bool.false_eq_true, if_false]
    | false =>
      have missing := (first.unselected chosen).1.trans hk
      have now_chosen : selects true k = true := rfl
      simp only [lacks, chosen, now_chosen, missing, Option.isNone_none, Bool.and_self,
        Bool.false_and, Bool.false_eq_true, if_false, if_true]

/-- In a list without repeated names a name is counted by its own handle alone. -/
theorem count_name {P : Handle σ κ → Bool} {hs : List (String × Handle σ κ)}
    (nodup : (hs.map (·.1)).Nodup) {name : String} {h : Handle σ κ} (hm : (name, h) ∈ hs) :
    ((hs.filter fun p => P p.2).map (·.1)).count name = if P h then 1 else 0 := by
  have sublist : ((hs.filter fun p => P p.2).map (·.1)).Nodup :=
    nodup.sublist (List.filter_sublist.map _)
  have own : ∀ k, (name, k) ∈ hs → k = h := by
    intro k hk
    exact congrArg Prod.snd (List.inj_on_of_nodup_map nodup hk hm rfl)
  rw [sublist.count]
  refine if_congr ?_ rfl rfl
  rw [List.mem_map]
  constructor
  · rintro ⟨⟨_, k⟩, inside, rfl⟩
    obtain ⟨listed, holds⟩ := List.mem_filter.1 inside
    rwa [← own k listed]
  · intro holds
    exact ⟨(name, h), List.mem_filter.2 ⟨hm, holds⟩, rfl⟩

/-- A bulk connect that went well: what it did in each place, and whom it got clients for. -/
theorem connectEach_ok {s : Service ω σ κ ο} {c : Configuration} {m : Stores ω σ κ}
    (hm : Sound c m.registry) {part : String} (all : Bool)
    (ok : (act s m (.connectEach part all)).1 = .ok ()) :
    InPlace (Passes s.backend c part all) m.registry.handles
        (act s m (.connectEach part all)).2.registry.handles ∧
      openedNames s.backend part all m =
        (m.registry.handles.filter fun p => lacks all p.2).map (·.1) := by
  have selected : act s m (.connectEach part all) =
      bulk (connectSelected s.backend part (selects all)) m := by
    cases all <;> rfl
  rw [selected] at ok ⊢
  rcases hv : visit (connectStep s.backend m.registry.configuration part (selects all))
    m.registry.handles m.world with ⟨result, hs, w⟩
  have whole : connectSelected s.backend part (selects all) m.registry m.world =
      (result, { m.registry with handles := hs }, w) := by
    simp only [connectSelected, hv]
  simp only [bulk, whole] at ok ⊢
  obtain rfl : result = .ok () := by
    cases result with
    | ok _ => rfl
    | error stop => cases ok
  refine ⟨(connectSelected_upTo hm whole).1, ?_⟩
  rcases visit_cases hv with ⟨-, visited⟩ | ⟨stop, _, _, _, _, _, _, _, failed, -⟩
  · exact openings_names visited
  · cases failed

theorem allConnected_of_inPlace {R : Handle σ κ → Handle σ κ → Prop}
    (connected : ∀ h h', R h h' → h'.status = .connected) {hs hs' : List (String × Handle σ κ)}
    (place : InPlace R hs hs') : AllConnected hs' := by
  intro p hp
  obtain ⟨h, -, related⟩ := place.mem_right hp
  exact connected h p.2 related

/-- **Connecting in two stages is connecting at once.** Whatever happened to a registry, if its
handles connect, first those that connect at start and then all have in the end the settings and
the state that all of them have when they are connected at once; the connector is asked once for
each handle that was not connected before, and not for the others. After either way a further bulk
connect, from any section, finds nothing to do. -/
theorem staged_connect_as_direct (s : Service ω σ κ ο) (c : Configuration) (own : String) (w : ω)
    (past : List (Act ω ο)) (part : String) :
    let now := run s ⟨Registry.empty c own, w⟩ past
    let atStart := act s now (.connectAllAtStart part)
    let staged := act s atStart.2 (.connectAll part)
    let direct := act s now (.connectAll part)
    atStart.1 = .ok () → staged.1 = .ok () → direct.1 = .ok () →
      InPlace SameState direct.2.registry.handles staged.2.registry.handles ∧
      (∀ name h, (name, h) ∈ now.registry.handles →
        (openedNames s.backend part false now ++
          openedNames s.backend part true atStart.2).count name =
            if h.status = .connected then 0 else 1) ∧
      NothingToConnect s staged.2 ∧ NothingToConnect s direct.2 := by
  intro now atStart staged direct ok ok' ok''
  have sound : Sound c now.registry := run_sound past (.empty c own)
  have sound' : Sound c atStart.2.registry := act_sound sound (.connectAllAtStart part)
  have sound'' : Sound c staged.2.registry := act_sound sound' (.connectAll part)
  have sound_direct : Sound c direct.2.registry := act_sound sound (.connectAll part)
  obtain ⟨first, opened⟩ := connectEach_ok sound false ok
  obtain ⟨second, opened'⟩ := connectEach_ok sound' true ok'
  obtain ⟨at_once, -⟩ := connectEach_ok sound true ok''
  have both : InPlace (PassesTwice s.backend c part) now.registry.handles
      staged.2.registry.handles := first.trans second fun _ _ _ => passesTwice
  refine ⟨at_once.beside both fun _ _ _ => sameState, ?_, ?_, ?_⟩
  · intro name h hm
    obtain ⟨k, hk, passed⟩ := first.mem_left hm
    rw [opened, opened', List.count_append, count_name sound.wellNamed.ordered.nodup_keys hm,
      count_name sound'.wellNamed.ordered.nodup_keys hk]
    exact lacks_once passed
  · exact nothingToConnect_of_connected s sound''
      (allConnected_of_inPlace (fun _ _ passed => passed.connected) both)
  · exact nothingToConnect_of_connected s sound_direct
      (allConnected_of_inPlace (fun _ _ passed => passed.connected rfl) at_once)

/-- Three stores, of which the first is connected by itself and the second connects at start. -/
def threeConnected : Configuration :=
  ⟨[("redis", .object [
    ("a", .object [("address", .string "h")]),
    ("b", .object [("address", .string "h"), ("is_connect_at_start", .bool true)]),
    ("c", .object [("address", .string "h")])])]⟩

def firstConnected : Stores KeyValue.Server KeyValue.Settings KeyValue.Client :=
  run memoryService ⟨Registry.empty threeConnected "redis", KeyValue.Server.fresh⟩
    [.load "redis", .request "a" .connect]

theorem other_two_opened_once :
    let atStart := act memoryService firstConnected (.connectAllAtStart "redis")
    let staged := act memoryService atStart.2 (.connectAll "redis")
    let direct := act memoryService firstConnected (.connectAll "redis")
    atStart.1 = .ok () ∧ staged.1 = .ok () ∧ direct.1 = .ok () ∧
      openedNames memoryService.backend "redis" false firstConnected = ["b"] ∧
      openedNames memoryService.backend "redis" true atStart.2 = ["c"] ∧
      InPlace SameState direct.2.registry.handles staged.2.registry.handles ∧
      NothingToConnect memoryService staged.2 := by
  have ok : (act memoryService firstConnected (.connectAllAtStart "redis")).1 = .ok () := by
    decide +kernel
  have ok' : (act memoryService (act memoryService firstConnected
      (.connectAllAtStart "redis")).2 (.connectAll "redis")).1 = .ok () := by
    decide +kernel
  have ok'' : (act memoryService firstConnected (.connectAll "redis")).1 = .ok () := by
    decide +kernel
  obtain ⟨same, -, done, -⟩ := staged_connect_as_direct memoryService threeConnected "redis"
    KeyValue.Server.fresh [.load "redis", .request "a" .connect] "redis" ok ok' ok''
  exact ⟨ok, ok', ok'', by decide +kernel, by decide +kernel, same, done⟩

end NamedStores.Registry
