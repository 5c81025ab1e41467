/-
What a registry lists, whatever happened to it. Handles are found by the key they stand under
and listed in the order of their own names; both come to the same names, since every act that
registers or replaces a handle puts it under its own name. A log of all that was registered says
which handle is found: the one registered last under its name, and none is ever lost.
-/
import Mathlib.Data.List.Sort
import NamedStores.KeyValue.Memory
import NamedStores.Proofs.Registry.LoadOutcome

namespace NamedStores.Registry

variable {ω σ κ ο : Type}

/-! ## The log of registrations -/

/-- What a handle was registered with. -/
structure Enrolment where
  name : String
  policy : ConnectPolicy
  sectionName : String

/-- The handle as it was registered, the number of those before it being its serial number. -/
def Enrolment.handle (e : Enrolment) (serial : Nat) : Handle σ κ :=
  .create e.name e.policy e.sectionName serial

/-- What loading registers: a handle for each entry, up to the first that is no object, which
gets none, or whose record gives no settings, which gets one. -/
def loadEnrolments (b : Backend ω σ κ) (part : String) : List (String × Json) → List Enrolment
  | [] => []
  | (name, entry) :: entries =>
    match entry.record? with
    | none => []
    | some record =>
      ⟨name, ConnectPolicy.ofRecord record, part⟩ ::
        match b.readSettings record with
        | .error _ => []
        | .ok _ => loadEnrolments b part entries

/-- What an act registers, where `own` is the section for handles registered one by one. -/
def enrolments (s : Service ω σ κ ο) (c : Configuration) (own : String) :
    Act ω ο → List Enrolment
  | .newHandle name policy => [⟨name, policy, own⟩]
  | .load part => loadEnrolments s.backend part ((c.section? part).getD [])
  | .connectAll _ | .connectAllAtStart _ | .disconnectAll | .request _ _ | .elsewhere _ => []

/-- The handle is the one registered last under the name, as its life has left it. -/
def LastUnder (log : List Enrolment) (name : String) (h : Handle σ κ) : Prop :=
  ∃ before e after, log = before ++ e :: after ∧ e.name = name ∧ (∀ e' ∈ after, e'.name ≠ name) ∧
    Handle.Evolves (e.handle before.length) h

theorem LastUnder.of_last (log : List Enrolment) {e : Enrolment} {h : Handle σ κ}
    (evolved : Handle.Evolves (e.handle log.length) h) : LastUnder (log ++ [e]) e.name h :=
  ⟨log, e, [], rfl, rfl, fun _ none => absurd none List.not_mem_nil, evolved⟩

theorem LastUnder.append {log : List Enrolment} {name : String} {h : Handle σ κ}
    (last : LastUnder log name h) {e : Enrolment} (other : e.name ≠ name) :
    LastUnder (log ++ [e]) name h := by
  obtain ⟨before, e₀, after, rfl, named, later, evolved⟩ := last
  refine ⟨before, e₀, after ++ [e], by simp, named, fun e' he => ?_, evolved⟩
  rcases List.mem_append.1 he with old | new
  · exact later e' old
  · rw [List.mem_singleton.1 new]
    exact other

theorem LastUnder.evolves {log : List Enrolment} {name : String} {h h' : Handle σ κ}
    (last : LastUnder log name h) (evolved : Handle.Evolves h h') : LastUnder log name h' := by
  obtain ⟨before, e, after, parts, named, later, until_now⟩ := last
  exact ⟨before, e, after, parts, named, later, until_now.trans evolved⟩

theorem loadEnrolments_append {b : Backend ω σ κ} {part : String} {done : List (String × Json)}
    {r r' : Registry σ κ} (hl : Loaded b part done r r') (rest : List (String × Json)) :
    loadEnrolments b part (done ++ rest) =
      loadEnrolments b part done ++ loadEnrolments b part rest := by
  induction hl with
  | nil => rfl
  | cons object fromRecord _ _ ih =>
    obtain ⟨settings, read, -⟩ := fromRecord.settings
    simp only [List.cons_append, loadEnrolments, object, read, ih]

/-! ## The registry beside the log -/

/-- The registry holds what the log says: under each name in it the handle registered last, and
no others. -/
structure Follows (own : String) (log : List Enrolment) (r : Registry σ κ) : Prop where
  count : r.nextSerial = log.length
  defaultSection : r.defaultSection = own
  last : ∀ name h, r.handles.get? name = some h → LastUnder log name h
  present : ∀ e ∈ log, (r.handles.get? e.name).isSome

namespace Follows

variable {own : String} {log : List Enrolment} {c : Configuration} {r r' : Registry σ κ}

theorem empty (c : Configuration) (own : String) :
    Follows own [] (Registry.empty c own : Registry σ κ) :=
  ⟨rfl, rfl, fun _ _ found => (by cases found), fun _ none => absurd none List.not_mem_nil⟩

/-- The names that are listed are those in the log. -/
theorem mem_names_iff (follows : Follows own log r) (name : String) :
    name ∈ r.names ↔ name ∈ log.map (·.name) := by
  rw [mem_names, List.mem_map]
  constructor
  · intro found
    obtain ⟨h, found⟩ := Option.isSome_iff_exists.1 found
    obtain ⟨before, e, after, rfl, named, -⟩ := follows.last name h found
    exact ⟨e, List.mem_append.2 (.inr List.mem_cons_self), named⟩
  · rintro ⟨e, listed, rfl⟩
    exact follows.present e listed

/-- The handle that a registration gives back is the one written to the log. -/
theorem newHandle (follows : Follows own log r) (name : String) (policy : ConnectPolicy) :
    (r.newHandle name policy).1 = Enrolment.handle ⟨name, policy, own⟩ log.length := by
  rw [← follows.count, ← follows.defaultSection]
  rfl

/-- A registration is written at the end of the log. -/
theorem enroll (follows : Follows own log r) {e : Enrolment} {h : Handle σ κ}
    (evolved : Handle.Evolves (e.handle r.nextSerial) h) : Follows own (log ++ [e]) (r.enroll h) := by
  have named : h.name = e.name := evolved.name
  rw [follows.count] at evolved
  refine ⟨?_, follows.defaultSection, fun name h' found => ?_, fun e' listed => ?_⟩
  · rw [List.length_append, List.length_singleton, ← follows.count]
    rfl
  · by_cases same : name = h.name
    · subst same
      cases (get?_enroll r h).symm.trans found
      rw [named]
      exact .of_last log evolved
    · rw [Registry.enroll, SortedMap.get?_insert_other _ _ same] at found
      exact (follows.last name h' found).append fun he => same (he ▸ named.symm)
  · by_cases same : e'.name = h.name
    · rw [same, get?_enroll]
      rfl
    · rw [Registry.enroll, SortedMap.get?_insert_other _ _ same]
      rcases List.mem_append.1 listed with old | new
      · exact follows.present e' old
      · exact absurd (congrArg Enrolment.name (List.mem_singleton.1 new)) (named ▸ same)

theorem register (follows : Follows own log r) (name : String) (policy : ConnectPolicy)
    (part : String) : Follows own (log ++ [⟨name, policy, part⟩])
      (r.enroll (Handle.create name policy part r.nextSerial)) :=
  follows.enroll (e := ⟨name, policy, part⟩) (.refl _)

theorem loaded {b : Backend ω σ κ} {part : String} {entries : List (String × Json)}
    (hl : Loaded b part entries r r') (follows : Follows own log r) :
    Follows own (log ++ loadEnrolments b part entries) r' := by
  induction hl generalizing log with
  | nil => rwa [loadEnrolments, List.append_nil]
  | @cons name entry record h entries r r' object fromRecord serial _ ih =>
    obtain ⟨settings, read, taken⟩ := fromRecord.settings
    have kept : Handle.WellKept h := by
      refine ⟨fun _ => by rw [taken]; rfl, ?_⟩
      rw [fromRecord.client, fromRecord.connectedAt]
      exact Iff.rfl
    have evolved : Handle.Evolves
        ((⟨name, ConnectPolicy.ofRecord record, part⟩ : Enrolment).handle r.nextSerial) h :=
      ⟨fromRecord.name, fromRecord.policy.eq (ConnectPolicy.ofRecord_givenBy record),
        fromRecord.sectionName, serial, fun _ => kept⟩
    have later := ih (follows.enroll evolved)
    rw [List.append_assoc, List.singleton_append] at later
    simpa only [loadEnrolments, object, read] using later

theorem load (follows : Follows own log r) (sound : Sound c r) (ordered : c.Ordered)
    {b : Backend ω σ κ} {part : String} {result : Except Stop Unit}
    (he : r.load b part = (result, r')) :
    Follows own (log ++ loadEnrolments b part ((c.section? part).getD [])) r' := by
  rw [Registry.load, sound.configuration] at he
  cases present : c.section? part with
  | none =>
    rw [present] at he
    cases he
    rwa [Option.getD_none, loadEnrolments, List.append_nil]
  | some entries =>
    rw [present] at he
    have here : r.configuration.section? part = some entries := sound.configuration ▸ present
    rw [Option.getD_some]
    rcases loadEntries_cases (ordered part entries present) (fun _ h => h) here he with
      ⟨-, hl⟩ | ⟨done, name, entry, rest, r₁, rfl, hl, outcome⟩
    · exact loaded hl follows
    -- The entry that ended the load is registered before its settings are read, if it is an object.
    · rw [loadEnrolments_append hl]
      rcases outcome with ⟨none, -, rfl⟩ | ⟨record, d, object, unread, -, rfl⟩
      · simpa only [loadEnrolments, none, List.append_nil] using loaded hl follows
      · have last := (loaded hl follows).register name (ConnectPolicy.ofRecord record) part
        simpa only [loadEnrolments, object, unread, List.append_assoc] using last

theorem put (follows : Follows own log r) (sound : Sound c r) {name : String} {h h' : Handle σ κ}
    (found : r.handles.get? name = some h) (evolved : Handle.Evolves h h') :
    Follows own log (r.put h') := by
  have named : h'.name = name := evolved.name.trans (sound.name_of_get? found)
  unfold Registry.put
  rw [named, found]
  dsimp only
  split
  · refine ⟨follows.count, follows.defaultSection, fun n k here => ?_, fun e listed => ?_⟩
    · by_cases same : n = name
      · subst same
        cases (SortedMap.get?_insert_self r.handles n h').symm.trans here
        exact (follows.last n h found).evolves evolved
      · rw [SortedMap.get?_insert_other _ _ same] at here
        exact follows.last n k here
    · by_cases same : e.name = name
      · rw [same, SortedMap.get?_insert_self]
        rfl
      · rw [SortedMap.get?_insert_other _ _ same]
        exact follows.present e listed
  · exact follows

theorem inPlace (follows : Follows own log r) (sound : Sound c r)
    {hs : SortedMap String (Handle σ κ)} (he : InPlace Handle.Evolves r.handles hs) :
    Follows own log { r with handles := hs } := by
  refine ⟨follows.count, follows.defaultSection, fun name h' found => ?_, fun e listed => ?_⟩
  · obtain ⟨h, old, evolved⟩ := he.mem_right (SortedMap.mem_of_get? found)
    exact (follows.last name h (sound.wellNamed.ordered.get?_eq_some_iff.2 old)).evolves evolved
  · have same : e.name ∈ hs.map (·.1) := by
      rw [he.keys]
      exact mem_names.2 (follows.present e listed)
    have listed : e.name ∈ names { r with handles := hs } := same
    exact mem_names.1 listed

theorem connectSelected (follows : Follows own log r) (sound : Sound c r) (b : Backend ω σ κ)
    (part : String) (all : Bool) (w : ω) :
    Follows own log (r.connectSelected b part (selects all) w).2.1 := by
  rcases hv : visit (connectStep b r.configuration part (selects all)) r.handles w with
    ⟨result, hs, w'⟩
  simp only [Registry.connectSelected, hv]
  exact follows.inPlace sound (visit_inPlace Handle.Evolves.refl connectStep_evolves hv)

end Follows

theorem act_follows {own : String} {log : List Enrolment} {c : Configuration} (ordered : c.Ordered)
    {s : Service ω σ κ ο} {m : Stores ω σ κ} (sound : Sound c m.registry)
    (follows : Follows own log m.registry) (a : Act ω ο) :
    Follows own (log ++ enrolments s c own a) (act s m a).2.registry := by
  cases a with
  | newHandle name policy =>
    cases follows.defaultSection
    exact follows.register name policy m.registry.defaultSection
  | load part =>
    rcases he : m.registry.load s.backend part with ⟨result, r'⟩
    simp only [act, he, enrolments]
    exact follows.load sound ordered he
  | connectAll part =>
    rw [enrolments, List.append_nil]
    exact follows.connectSelected sound s.backend part true m.world
  | connectAllAtStart part =>
    rw [enrolments, List.append_nil]
    exact follows.connectSelected sound s.backend part false m.world
  | disconnectAll =>
    rw [enrolments, List.append_nil]
    exact follows.inPlace sound (visit_inPlace Handle.Evolves.refl disconnectStep_evolves rfl)
  | request name q =>
    rw [enrolments, List.append_nil]
    simp only [act, request, get]
    split
    · exact follows
    · next h found =>
      split at found
      · next hg =>
        cases found
        exact follows.put sound hg (Handle.step_evolves s _ ⟨h, m.world⟩ q)
      · cases found
  | elsewhere w => rwa [enrolments, List.append_nil]

/-- Whatever happened to it, a registry follows the log of what was registered. -/
theorem run_follows_log {own : String} {c : Configuration} (ordered : c.Ordered)
    {s : Service ω σ κ ο} (acts : List (Act ω ο)) :
    ∀ {log : List Enrolment} {m : Stores ω σ κ}, Sound c m.registry → Follows own log m.registry →
      Follows own (log ++ acts.flatMap (enrolments s c own)) (run s m acts).registry := by
  induction acts with
  | nil => exact fun _ follows => by rwa [List.flatMap_nil, List.append_nil]
  | cons a acts ih =>
    intro log m sound follows
    rw [List.flatMap_cons, ← List.append_assoc]
    exact ih (act_sound sound a) (act_follows ordered sound follows a)

/-! ## What is listed -/

/-- The order of the octets of two names. -/
def nameLe (a b : String) : Bool := !decide (Utf8.ofString b < Utf8.ofString a)

theorem nameLe_iff {a b : String} : nameLe a b = true ↔ a ≤ b := by
  rw [nameLe, Bool.not_eq_true', decide_eq_false_iff_not, ← String.not_lt]
  refine not_congr ⟨fun less => ?_, Utf8.ofString_lt⟩
  rcases Std.lt_trichotomy a b with before | same | after
  · exact absurd (Utf8.ofString_lt before) (List.lt_asymm less)
  · subst same
    exact absurd less (List.lt_irrefl _)
  · exact after

/-- Sorting makes one list of all orders of the same items, where no two tie. -/
theorem mergeSort_of_perm {α : Type} {f : α → String} {xs ys : List α} (perm : xs.Perm ys)
    (ascend : ys.Pairwise fun x y => f x < f y) :
    xs.mergeSort (fun x y => nameLe (f x) (f y)) = ys := by
  have trans (a b c : String) (h : nameLe a b = true) (h' : nameLe b c = true) :
      nameLe a c = true := nameLe_iff.2 (String.le_trans (nameLe_iff.1 h) (nameLe_iff.1 h'))
  have total (a b : String) : (nameLe a b || nameLe b a) = true := by
    rw [Bool.or_eq_true, nameLe_iff, nameLe_iff]
    exact String.le_total a b
  have sorted := @List.pairwise_mergeSort _ (fun x y => nameLe (f x) (f y))
    (fun x y z => trans (f x) (f y) (f z)) (fun x y => total (f x) (f y)) xs
  have apart : (ys.map f).Nodup := List.pairwise_map.2 (ascend.imp SortedMap.ne_of_lt)
  have same := (List.mergeSort_perm xs fun x y => nameLe (f x) (f y)).trans perm
  refine same.eq_of_pairwise (fun x y hx hy le ge => ?_) sorted
    (ascend.imp fun less => nameLe_iff.2 (Std.le_of_lt less))
  exact List.inj_on_of_nodup_map apart (same.mem_iff.1 hx) hy
    (String.le_antisymm (nameLe_iff.1 le) (nameLe_iff.1 ge))

/-- What can be read off a registry whose handles are held by name, in whatever order. -/
structure Lists (kind : Kind) (r : Registry σ κ) : Prop where
  underOwnName : ∀ name h, r.get name = .ok h → h.name = name
  namesAscend : r.names.Pairwise fun a b => Utf8.ofString a < Utf8.ofString b
  sameNames : (r.summaries kind).map (·.name) = r.names
  counted : r.size = r.names.length
  empty_iff : r.isEmpty = true ↔ r.names = []
  contains_iff : ∀ name, r.contains name = true ↔ name ∈ r.names
  found_iff : ∀ name, (∃ h, r.get name = .ok h) ↔ name ∈ r.names
  /-- What is listed under a name is what its handle shows. -/
  shown : ∀ s ∈ r.summaries kind, ∃ h, r.get s.name = .ok h ∧ s.kind = kind ∧
    s.status = h.status ∧ s.policy = h.policy ∧ s.connectedAt = h.connectedAt
  timed : ∀ s ∈ r.summaries kind, s.connectedAt.isSome ↔ s.status = .connected
  /-- In whatever order the entries of the map come, their keys sorted are the names, and their
  handles sorted by their own names are what is listed and visited. -/
  sorted : ∀ entries : List (String × Handle σ κ), entries.Perm r.handles →
    (entries.map (·.1)).mergeSort nameLe = r.names ∧
      (entries.map (·.2)).mergeSort (fun h h' => nameLe h.name h'.name) = r.handles.map (·.2)

theorem get_eq_ok {r : Registry σ κ} {name : String} {h : Handle σ κ} :
    r.get name = .ok h ↔ r.handles.get? name = some h := by
  rw [get]
  cases r.handles.get? name <;> simp

theorem Sound.lists {c : Configuration} {r : Registry σ κ} (sound : Sound c r) (kind : Kind) :
    Lists kind r where
  underOwnName name h found := sound.name_of_get? (get_eq_ok.1 found)
  namesAscend := sound.names_ascend
  sameNames := by
    rw [summaries, List.map_map]
    exact List.map_congr_left fun p hp => sound.wellNamed.named p hp
  counted := (List.length_map _).symm
  empty_iff := by rw [isEmpty, List.isEmpty_iff, names, SortedMap.keys, List.map_eq_nil_iff]
  contains_iff name := mem_names.symm
  found_iff name := by
    rw [mem_names, Option.isSome_iff_exists]
    exact exists_congr fun h => get_eq_ok
  shown s hs := by
    obtain ⟨⟨name, h⟩, hp, rfl⟩ := List.mem_map.1 hs
    have named : h.name = name := sound.wellNamed.named _ hp
    refine ⟨h, get_eq_ok.2 ?_, rfl, rfl, rfl, rfl⟩
    exact sound.wellNamed.ordered.get?_eq_some_iff.2 (named ▸ hp)
  timed s hs := by
    obtain ⟨p, hp, rfl⟩ := List.mem_map.1 hs
    exact (sound.wellKept p hp).connectedAt_iff.trans Handle.status_connected.symm
  sorted entries perm := by
    have ascend := SortedMap.ordered_iff.1 sound.wellNamed.ordered
    refine ⟨mergeSort_of_perm (f := id) (perm.map _) ascend, ?_⟩
    refine mergeSort_of_perm (f := Handle.name) (perm.map _) ?_
    have own : (r.handles.map (·.2)).map Handle.name = r.handles.map (·.1) := by
      rw [List.map_map]
      exact List.map_congr_left fun p hp => sound.wellNamed.named p hp
    exact List.pairwise_map.1 (own ▸ ascend)

/-- **A registry lists each handle once, by name, and the one registered last.** Whatever happened
to it, the names ascend, finding, counting and listing go by the same names, and a name that was
ever registered stays: under it is the handle registered last, as its life has left it. -/
theorem registry_lists_last_registered (s : Service ω σ κ ο) (kind : Kind) (c : Configuration)
    (ordered : c.Ordered) (own : String) (w : ω) (acts : List (Act ω ο)) :
    let now := (run s ⟨Registry.empty c own, w⟩ acts).registry
    let log := acts.flatMap (enrolments s c own)
    Lists kind now ∧
      (∀ name, name ∈ now.names ↔ name ∈ log.map (·.name)) ∧
      (∀ name h, now.get name = .ok h → LastUnder log name h) ∧
      (∀ name policy, (now.newHandle name policy).1 =
        Enrolment.handle ⟨name, policy, own⟩ log.length) ∧
      ∀ later, ∀ name ∈ now.names,
        name ∈ (run s ⟨Registry.empty c own, w⟩ (acts ++ later)).registry.names := by
  intro now log
  have sound : Sound c now := run_sound acts (.empty c own)
  have follows (acts : List (Act ω ο)) : Follows own (acts.flatMap (enrolments s c own))
      (run s ⟨Registry.empty c own, w⟩ acts).registry := by
    simpa only [List.nil_append] using run_follows_log ordered (s := s) acts
      (m := ⟨Registry.empty c own, w⟩) (.empty c own) (.empty c own)
  refine ⟨sound.lists kind, (follows acts).mem_names_iff,
    fun name h found => (follows acts).last name h (get_eq_ok.1 found), (follows acts).newHandle,
    fun later name listed => ?_⟩
  rw [(follows (acts ++ later)).mem_names_iff, List.flatMap_append, List.map_append,
    List.mem_append]
  exact .inl (((follows acts).mem_names_iff name).1 listed)

/-- Two handles are registered, then a section is loaded whose first entry has the name of one of
them and whose second is no object. -/
def registeredAndLoaded : List (Act KeyValue.Server KeyValue.Operation) :=
  [.newHandle "b" ⟨true, true⟩, .newHandle "a" ⟨true, true⟩, .load "redis", .connectAll "redis"]

theorem loaded_handle_listed :
    numberBehind.Ordered ∧
      (act (KeyValue.service KeyValue.Memory.driver) (run (KeyValue.service KeyValue.Memory.driver)
        ⟨Registry.empty numberBehind "redis", KeyValue.Server.fresh⟩
        (registeredAndLoaded.take 2)) (.load "redis")).1 =
          .error (.malformedEntry "redis" "b") ∧
      let now := (run (KeyValue.service KeyValue.Memory.driver)
        ⟨Registry.empty numberBehind "redis", KeyValue.Server.fresh⟩ registeredAndLoaded).registry
      now.names = ["a", "b"] ∧
        ∃ h, now.get "a" = .ok h ∧ h.serial = 2 ∧ h.status = .connected ∧
          LastUnder (registeredAndLoaded.flatMap
            (enrolments (KeyValue.service KeyValue.Memory.driver) numberBehind "redis")) "a" h := by
  obtain ⟨-, -, last, -⟩ := registry_lists_last_registered
    (KeyValue.service KeyValue.Memory.driver) .redis numberBehind numberBehind_ordered "redis"
    KeyValue.Server.fresh registeredAndLoaded
  refine ⟨numberBehind_ordered, by decide +kernel, by decide +kernel, _, rfl, by decide +kernel,
    by decide +kernel, last "a" _ rfl⟩

end NamedStores.Registry
