/-
What loading a section leaves behind, however it ends. The entries are taken in the order of
their names. Each that was loaded has a new handle with settings, in the place of any handle of
its name; the entry at which loading stopped has a new handle without settings, or none if it is
no object; every other handle is the one it was.
-/
import NamedStores.KeyValue.Memory
import NamedStores.Proofs.Registry.Life

namespace NamedStores.Registry

variable {ω σ κ ο : Type}

/-! ## What entries have become -/

/-- The handle that an entry has got: of its record, with settings, and newer than any before. -/
structure NewHandle (b : Backend ω σ κ) (part : String) (r : Registry σ κ) (name : String)
    (record : Record) (h : Handle σ κ) : Prop extends FromRecord b part name record h where
  status : h.status = .configured
  fresh : r.nextSerial ≤ h.serial

/-- All these entries have got their handles. -/
def Fills (b : Backend ω σ κ) (part : String) (r r' : Registry σ κ)
    (entries : List (String × Json)) : Prop :=
  ∀ name entry, (name, entry) ∈ entries → ∃ record h, entry.record? = some record ∧
    r'.handles.get? name = some h ∧ NewHandle b part r name record h

/-- Only under these names there may be other handles than before. -/
def KeepsOthers (r r' : Registry σ κ) (names : List String) : Prop :=
  ∀ name, name ∉ names → r'.handles.get? name = r.handles.get? name

theorem Loaded.nextSerial_le {b : Backend ω σ κ} {part : String} {entries : List (String × Json)}
    {r r' : Registry σ κ} (hl : Loaded b part entries r r') : r.nextSerial ≤ r'.nextSerial := by
  induction hl with
  | nil => exact Nat.le_refl _
  | cons _ _ _ _ ih => exact Nat.le_of_succ_le ih

theorem FromRecord.configured {b : Backend ω σ κ} {part name : String} {record : Record}
    {h : Handle σ κ} (hf : FromRecord b part name record h) : h.status = .configured := by
  obtain ⟨s, -, settings⟩ := hf.settings
  exact Handle.status_configured.2 ⟨by rw [settings]; rfl, hf.client⟩

theorem Loaded.fills {b : Backend ω σ κ} {part : String} {entries : List (String × Json)}
    {r r' : Registry σ κ} (hl : Loaded b part entries r r') (ho : SortedMap.Ordered entries) :
    Fills b part r r' entries := by
  induction hl with
  | nil => exact fun _ _ hm => absurd hm List.not_mem_nil
  | @cons name' entry' record h entries r r' hr hf serial hl ih =>
    simp only [SortedMap.Ordered, List.pairwise_cons] at ho
    intro name entry hm
    rcases List.mem_cons.1 hm with he | hm
    · cases he
      -- No later entry has the name again, so its handle stays.
      have later : ∀ e ∈ entries, e.1 ≠ name' := fun e he hn =>
        SortedMap.ne_of_lt (ho.1 e he) hn.symm
      refine ⟨record, h, hr, ?_, hf, hf.configured, Nat.le_of_eq serial.symm⟩
      rw [hl.get?_other later, ← hf.name]
      exact get?_enroll r h
    · obtain ⟨record, h', hr, hg, new⟩ := ih ho.2 name entry hm
      exact ⟨record, h', hr, hg, new.toFromRecord, new.status, Nat.le_of_succ_le new.fresh⟩

theorem Loaded.keepsOthers {b : Backend ω σ κ} {part : String} {entries : List (String × Json)}
    {r r' : Registry σ κ} (hl : Loaded b part entries r r') :
    KeepsOthers r r' (entries.map (·.1)) :=
  fun _ absent => hl.get?_other fun _ he hn => absent (hn ▸ List.mem_map_of_mem he)

theorem mem_names {r : Registry σ κ} {name : String} :
    name ∈ r.names ↔ (r.handles.get? name).isSome = true := by
  simp [names, SortedMap.keys, SortedMap.get?, List.find?_isSome]

/-- Names are added where entries have got handles, and none is taken away. -/
theorem names_of_fills {b : Backend ω σ κ} {part : String} {entries : List (String × Json)}
    {r r' : Registry σ κ} (fills : Fills b part r r' entries)
    (others : KeepsOthers r r' (entries.map (·.1))) (name : String) :
    name ∈ r'.names ↔ name ∈ r.names ∨ name ∈ entries.map (·.1) := by
  rw [mem_names, mem_names]
  by_cases hm : name ∈ entries.map (·.1)
  · obtain ⟨⟨_, entry⟩, he, rfl⟩ := List.mem_map.1 hm
    obtain ⟨record, h, -, hg, -⟩ := fills _ entry he
    exact iff_of_true (by rw [hg]; rfl) (.inr hm)
  · rw [others name hm, or_iff_left hm]

/-! ## How loading ends -/

/-- A new handle whose record gives no settings. -/
structure Unusable (part : String) (r : Registry σ κ) (name : String) (record : Record)
    (h : Handle σ κ) : Prop where
  name : h.name = name
  policy : h.policy.GivenBy record
  sectionName : h.sectionName = part
  status : h.status = .unconfigured
  fresh : r.nextSerial ≤ h.serial

/-- The registry before and after loading a section, and the result. -/
inductive LoadsUpTo (b : Backend ω σ κ) (c : Configuration) (part : String)
    (r r' : Registry σ κ) : Except Failure Unit → Prop
  /-- The section is not there. -/
  | absent : c.section? part = none → r' = r →
      LoadsUpTo b c part r r' (.error (.configurationNotFound part))
  /-- All entries were loaded. -/
  | done (entries : Record) : c.section? part = some entries → Fills b part r r' entries →
      KeepsOthers r r' (entries.map (·.1)) →
      (∀ name, name ∈ r'.names ↔ name ∈ r.names ∨ name ∈ entries.map (·.1)) →
      LoadsUpTo b c part r r' (.ok ())
  /-- An entry is no object. -/
  | malformed (before after : List (String × Json)) (name : String) (entry : Json) :
      c.section? part = some (before ++ (name, entry) :: after) → entry.record? = none →
      Fills b part r r' before → KeepsOthers r r' (before.map (·.1)) →
      LoadsUpTo b c part r r' (.error (.malformedEntry part name))
  /-- An entry has no usable settings. -/
  | unusable (before after : List (String × Json)) (name : String) (entry : Json)
      (record : Record) (d : Defect) (h : Handle σ κ) :
      c.section? part = some (before ++ (name, entry) :: after) → entry.record? = some record →
      b.readSettings record = .error d → r'.handles.get? name = some h →
      Unusable part r name record h → Fills b part r r' before →
      KeepsOthers r r' (before.map (·.1) ++ [name]) →
      LoadsUpTo b c part r r' (.error (d.failure name h.policy.must))

theorem load_upTo {b : Backend ω σ κ} {c : Configuration} (ordered : c.Ordered) {part : String}
    {r r' : Registry σ κ} (hr : r.configuration = c) {result : Except Stop Unit}
    (he : r.load b part = (result, r')) :
    LoadsUpTo b c part r r' (result.mapError Stop.failure) := by
  subst hr
  unfold load at he
  split at he
  · next absent =>
    cases he
    exact .absent absent rfl
  · next entries present =>
    have ho := ordered part entries present
    rcases loadEntries_cases ho (fun _ h => h) present he with ⟨rfl, hl⟩ |
      ⟨before, name, entry, after, r₁, parts, hl, ⟨hn, rfl, rfl⟩ | ⟨record, d, hrec, hd, rfl, rfl⟩⟩
    · exact .done entries present (hl.fills ho) hl.keepsOthers
        (names_of_fills (hl.fills ho) hl.keepsOthers)
    · subst parts
      have front := (List.pairwise_append.1 ho).1
      exact .malformed before after name entry present hn (hl.fills front) hl.keepsOthers
    · subst parts
      obtain ⟨front, -, apart⟩ := List.pairwise_append.1 ho
      have other (n : String) (hn : n ≠ name) := SortedMap.get?_insert_other r₁.handles
        (Handle.create name (ConnectPolicy.ofRecord record) part r₁.nextSerial : Handle σ κ) hn
      have filled := hl.fills front
      refine .unusable before after name entry record d _ present hrec hd
        (get?_register r₁ _ _ _)
        ⟨rfl, ConnectPolicy.ofRecord_givenBy record, rfl, rfl, hl.nextSerial_le⟩
        (fun n e hm => ?_) (fun n absent => ?_)
      · have before_name : n ≠ name :=
          SortedMap.ne_of_lt (apart (n, e) hm (name, entry) List.mem_cons_self)
        obtain ⟨record', h, hrec', hg, new⟩ := filled n e hm
        exact ⟨record', h, hrec', (other n before_name).trans hg, new⟩
      · rw [List.mem_append, List.mem_singleton, not_or] at absent
        exact (other n absent.2).trans (hl.keepsOthers n absent.1)

/-- **Loading stops at the first entry that cannot be used.** Whatever happened to a registry,
loading a section registers new handles for its entries, in the order of their names, up to the
first that is no object or has no usable settings, and no other handle is touched. -/
theorem load_stops_at_first (s : Service ω σ κ ο) (c : Configuration) (ordered : c.Ordered)
    (own : String) (w : ω) (past : List (Act ω ο)) (part : String) :
    let now := run s ⟨Registry.empty c own, w⟩ past
    let (result, after) := act s now (.load part)
    (∀ entries, c.section? part = some entries →
      (entries.map (·.1)).Pairwise fun a b => Utf8.ofString a < Utf8.ofString b) ∧
    (∀ p ∈ now.registry.handles, p.2.name = p.1 ∧ p.2.serial < now.registry.nextSerial) ∧
    LoadsUpTo s.backend c part now.registry after.registry result ∧ after.world = now.world := by
  intro now
  have sound : Sound c now.registry := run_sound past (.empty c own)
  rcases he : now.registry.load s.backend part with ⟨result, r'⟩
  simp only [act, he]
  refine ⟨fun entries present => ?_, fun p hp => ⟨sound.wellNamed.named p hp, sound.older p hp⟩,
    load_upTo ordered sound.configuration he, trivial⟩
  exact (SortedMap.ordered_iff.1 (ordered part entries present)).imp Utf8.ofString_lt

/-- A section with a usable entry, and a number behind it. Of the flags of the entry one is on, and
one is a text. -/
def numberBehind : Configuration :=
  ⟨[("redis", .object [
    ("a", .object [("address", .string "localhost"), ("is_connect_at_start", .bool true),
      ("must_connected", .string "true")]),
    ("b", .integer 5)])]⟩

theorem numberBehind_ordered : numberBehind.Ordered := by
  intro part records present
  by_cases hp : "redis" = part
  · subst hp
    cases present
    exact SortedMap.ordered_iff.2 (by decide)
  · simp [numberBehind, Configuration.section?, SortedMap.get?, hp] at present

/-- Two handles were there before, one of them under the name of an entry. -/
def beforeLoading : Stores KeyValue.Server KeyValue.Settings KeyValue.Client :=
  run (KeyValue.service KeyValue.Memory.driver)
    ⟨Registry.empty numberBehind "redis", KeyValue.Server.fresh⟩
    [.newHandle "a" ⟨true, true⟩, .newHandle "c" ⟨true, true⟩]

theorem load_stops_at_number :
    numberBehind.Ordered ∧ ∃ after,
      act (KeyValue.service KeyValue.Memory.driver) beforeLoading (.load "redis") =
        (.error (.malformedEntry "redis" "b"), after) ∧
      (after.registry.handles.get? "a").map (·.policy) = some ⟨true, false⟩ ∧
      (after.registry.handles.get? "a").map (·.status) = some .configured ∧
      (after.registry.handles.get? "c").map (·.policy) = some ⟨true, true⟩ ∧
      LoadsUpTo KeyValue.Memory.driver.backend numberBehind "redis" beforeLoading.registry
        after.registry (.error (.malformedEntry "redis" "b")) := by
  have stopped : (act (KeyValue.service KeyValue.Memory.driver) beforeLoading (.load "redis")).1 =
      .error (.malformedEntry "redis" "b") := by decide +kernel
  have outcome := load_stops_at_first (KeyValue.service KeyValue.Memory.driver) numberBehind
    numberBehind_ordered "redis" KeyValue.Server.fresh
    [.newHandle "a" ⟨true, true⟩, .newHandle "c" ⟨true, true⟩] "redis"
  obtain ⟨-, -, upTo, -⟩ := outcome
  refine ⟨numberBehind_ordered, _, Prod.ext stopped rfl, by decide +kernel, by decide +kernel,
    by decide +kernel, ?_⟩
  rw [← stopped]
  exact upTo

end NamedStores.Registry
