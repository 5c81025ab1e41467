/-
Loading a section into a registry. The entries are taken in order up to the first that is no
object or that no settings can be read from; `loadEntries_cases` says what each end leaves
behind, and `Loaded` what the entries before it have become.
-/
import NamedStores.Proofs.Handle.Steps
import NamedStores.Proofs.Json.Ordered
import NamedStores.Proofs.Record
import NamedStores.Registry

namespace NamedStores

theorem Configuration.record_of_mem {c : Configuration} {part name : String} {records : Record}
    {entry : Json} {record : Record} (hs : c.section? part = some records)
    (ho : SortedMap.Ordered records) (hm : (name, entry) ∈ records)
    (hr : entry.record? = some record) : c.record part name = .ok record := by
  have hg : SortedMap.get? records name = some entry := ho.get?_eq_some_iff.2 hm
  simp [Configuration.record, hs, hg, hr]

namespace Registry

variable {ω σ κ : Type}

/-- Registers a handle under its name, in the place of the one there was. -/
def enroll (r : Registry σ κ) (h : Handle σ κ) : Registry σ κ :=
  { r with handles := r.handles.insert h.name h, nextSerial := r.nextSerial + 1 }

/-- Handles in the order of their names, each under its own. -/
structure WellNamed (r : Registry σ κ) : Prop where
  ordered : SortedMap.Ordered r.handles
  named : ∀ p ∈ r.handles, p.2.name = p.1

theorem WellNamed.of_keys {r : Registry σ κ} (hr : WellNamed r)
    {hs : SortedMap String (Handle σ κ)} (hk : hs.map (·.1) = r.handles.map (·.1)) :
    SortedMap.Ordered hs :=
  SortedMap.ordered_iff.2 (hk ▸ SortedMap.ordered_iff.1 hr.ordered)

theorem WellNamed.empty {c : Configuration} {part : String} :
    WellNamed (Registry.empty c part : Registry σ κ) :=
  ⟨List.Pairwise.nil, fun _ h => absurd h List.not_mem_nil⟩

theorem WellNamed.enroll {r : Registry σ κ} (hr : WellNamed r) (h : Handle σ κ) :
    WellNamed (r.enroll h) where
  ordered := hr.ordered.insert h.name h
  named := by
    intro p hp
    rcases (SortedMap.mem_insert hr.ordered).1 hp with rfl | ⟨hm, -⟩
    · rfl
    · exact hr.named p hm

theorem get?_enroll (r : Registry σ κ) (h : Handle σ κ) :
    (r.enroll h).handles.get? h.name = some h :=
  SortedMap.get?_insert_self _ _ _

theorem get?_register (r : Registry σ κ) (name : String) (policy : ConnectPolicy)
    (part : String) : (r.register name policy part).2.handles.get? name =
      some (r.register name policy part).1 :=
  get?_enroll r (Handle.create name policy part r.nextSerial)

/-- A step of a handle just registered leads to the registry with the handle after the step. -/
theorem put_enroll {r : Registry σ κ} {h h' : Handle σ κ} (hn : h'.name = h.name)
    (hs : h'.serial = h.serial) : (r.enroll h).put h' = r.enroll h' := by
  have hg : SortedMap.get? (r.handles.insert h.name h) h.name = some h := get?_enroll r h
  simp [put, enroll, hn, hs, hg, SortedMap.insert_insert]

/-! ## What loading makes of the entries -/

/-- A handle as loading leaves it: with the policy and the settings of its record. -/
structure FromRecord (b : Backend ω σ κ) (part name : String) (record : Record)
    (h : Handle σ κ) : Prop where
  name : h.name = name
  policy : h.policy.GivenBy record
  sectionName : h.sectionName = part
  settings : ∃ s, b.readSettings record = .ok s ∧ h.settings = some s
  client : h.client = none
  connectedAt : h.connectedAt = none

/-- From one registry to the other all entries were registered and took settings, in order. -/
inductive Loaded (b : Backend ω σ κ) (part : String) :
    List (String × Json) → Registry σ κ → Registry σ κ → Prop
  | nil (r : Registry σ κ) : Loaded b part [] r r
  | cons {name : String} {entry : Json} {record : Record} {h : Handle σ κ}
      {entries : List (String × Json)} {r r' : Registry σ κ} :
      entry.record? = some record → FromRecord b part name record h → h.serial = r.nextSerial →
      Loaded b part entries (r.enroll h) r' → Loaded b part ((name, entry) :: entries) r r'

theorem Loaded.configuration {b : Backend ω σ κ} {part : String}
    {entries : List (String × Json)} {r r' : Registry σ κ} (hl : Loaded b part entries r r') :
    r'.configuration = r.configuration := by
  induction hl with
  | nil => rfl
  | cons _ _ _ _ ih => exact ih

theorem Loaded.wellNamed {b : Backend ω σ κ} {part : String} {entries : List (String × Json)}
    {r r' : Registry σ κ} (hl : Loaded b part entries r r') (hr : WellNamed r) :
    WellNamed r' := by
  induction hl with
  | nil => exact hr
  | cons _ _ _ _ ih => exact ih (hr.enroll _)

/-- A name that no entry has keeps its handle. -/
theorem Loaded.get?_other {b : Backend ω σ κ} {part : String} {entries : List (String × Json)}
    {r r' : Registry σ κ} (hl : Loaded b part entries r r') {name : String}
    (hn : ∀ e ∈ entries, e.1 ≠ name) : r'.handles.get? name = r.handles.get? name := by
  induction hl with
  | nil => rfl
  | @cons name' entry record h entries r r' _ hf _ _ ih =>
    have hne : name ≠ h.name := fun he => hn (name', entry) List.mem_cons_self (by rw [he, hf.name])
    rw [ih fun e he => hn e (List.mem_cons_of_mem _ he)]
    exact SortedMap.get?_insert_other _ _ hne

/-- The name of an entry has the handle of its record. -/
theorem Loaded.get?_entry {b : Backend ω σ κ} {part : String} {entries : List (String × Json)}
    {r r' : Registry σ κ} (hl : Loaded b part entries r r') (ho : SortedMap.Ordered entries)
    {name : String} {entry : Json} (hm : (name, entry) ∈ entries) :
    ∃ record h, entry.record? = some record ∧ r'.handles.get? name = some h ∧
      FromRecord b part name record h := by
  induction hl with
  | nil => cases hm
  | @cons name' entry' record h entries r r' hr hf _ hl ih =>
    simp only [SortedMap.Ordered, List.pairwise_cons] at ho
    rcases List.mem_cons.1 hm with he | hm
    · cases he
      -- No later entry has the name again, so its handle stays.
      have later : ∀ e ∈ entries, e.1 ≠ name := fun e he hn =>
        SortedMap.ne_of_lt (ho.1 e he) hn.symm
      refine ⟨record, h, hr, ?_, hf⟩
      rw [hl.get?_other later, ← hf.name]
      exact get?_enroll r h
    · exact ih ho.2 hm

/-- Every handle that was not there before is that of an entry. -/
theorem Loaded.of_get? {b : Backend ω σ κ} {part : String} {entries : List (String × Json)}
    {r r' : Registry σ κ} (hl : Loaded b part entries r r') (ho : SortedMap.Ordered entries)
    {name : String} {h : Handle σ κ} (hg : r'.handles.get? name = some h) :
    r.handles.get? name = some h ∨
      ∃ entry record, (name, entry) ∈ entries ∧ entry.record? = some record ∧
        FromRecord b part name record h := by
  by_cases hn : ∃ e ∈ entries, e.1 = name
  · obtain ⟨⟨_, entry⟩, hm, rfl⟩ := hn
    obtain ⟨record, h', hr, hg', hf⟩ := hl.get?_entry ho hm
    rw [hg] at hg'
    cases hg'
    exact .inr ⟨entry, record, hm, hr, hf⟩
  · rw [hl.get?_other fun e he hn' => hn ⟨e, he, hn'⟩] at hg
    exact .inl hg

/-! ## How loading ends -/

/-- Applying a record to a handle without settings. -/
theorem apply_record {b : Backend ω σ κ} {c : Configuration} {part : String} {h : Handle σ κ}
    {record : Record} (hs : h.settings = none) (hc : c.record part h.name = .ok record) :
    h.apply b c part =
      match b.readSettings record with
      | .ok s => (.ok (), { h with settings := some s })
      | .error d => (.error (.setback (.defect d)), h) := by
  cases hd : b.readSettings record <;> simp [Handle.apply, Handle.configure, hs, hc, hd]

/-- Loading goes to the end of the entries, or it stops at one that is no object, or at one that
was registered but has no settings to take. -/
theorem loadEntries_cases {b : Backend ω σ κ} {part : String} {all : Record}
    (ho : SortedMap.Ordered all) {entries : List (String × Json)} (hsub : ∀ e ∈ entries, e ∈ all)
    {r r' : Registry σ κ} (hs : r.configuration.section? part = some all)
    {result : Except Stop Unit} (he : loadEntries b part entries r = (result, r')) :
    (result = .ok () ∧ Loaded b part entries r r') ∨
      ∃ done name entry rest r₁, entries = done ++ (name, entry) :: rest ∧
        Loaded b part done r r₁ ∧
        ((entry.record? = none ∧ result = .error (.malformedEntry part name) ∧ r' = r₁) ∨
          ∃ record d, entry.record? = some record ∧ b.readSettings record = .error d ∧
            result = .error (.handle name (ConnectPolicy.ofRecord record).must
              (.setback (.defect d)) false) ∧
            r' = r₁.enroll (Handle.create name (ConnectPolicy.ofRecord record) part
              r₁.nextSerial)) := by
  induction entries generalizing r with
  | nil =>
    cases he
    exact .inl ⟨rfl, .nil _⟩
  | cons e entries ih =>
    obtain ⟨name, entry⟩ := e
    rw [loadEntries] at he
    split at he
    · next hn =>
      cases he
      exact .inr ⟨[], name, entry, entries, _, rfl, .nil _, .inl ⟨hn, rfl, rfl⟩⟩
    · next record hr =>
      have hc : r.configuration.record part name = .ok record :=
        Configuration.record_of_mem hs ho (hsub _ List.mem_cons_self) hr
      generalize hh : (Handle.create name (ConnectPolicy.ofRecord record) part r.nextSerial :
        Handle σ κ) = h
      have hn : h.name = name := by rw [← hh]; rfl
      have hreg : r.register name (ConnectPolicy.ofRecord record) part = (h, r.enroll h) := by
        rw [register, hh, enroll, hn]
      have hnone : h.settings = none := by rw [← hh]; rfl
      have hch : (r.enroll h).configuration.record part h.name = .ok record := hn ▸ hc
      simp only [hreg, apply_record hnone hch] at he
      cases hd : b.readSettings record with
      | error d =>
        simp only [hd] at he
        cases he
        exact .inr ⟨[], name, entry, entries, r, rfl, .nil _,
          .inr ⟨record, d, hr, hd, rfl, by rw [hh]⟩⟩
      | ok s =>
        have hput : (r.enroll h).put { h with settings := some s } =
            r.enroll { h with settings := some s } := put_enroll rfl rfl
        simp only [hd, hput] at he
        have hf : FromRecord b part name record { h with settings := some s } := by
          subst hh
          exact ⟨rfl, ConnectPolicy.ofRecord_givenBy record, rfl, ⟨s, hd, rfl⟩, rfl, rfl⟩
        have hserial : h.serial = r.nextSerial := by rw [← hh]; rfl
        rcases ih (fun e he => hsub e (List.mem_cons_of_mem _ he))
            (r := r.enroll { h with settings := some s }) hs he with
          ⟨rfl, hl⟩ | ⟨done, name', entry', rest, r₁, rfl, hl, hend⟩
        · exact .inl ⟨rfl, .cons hr hf hserial hl⟩
        · exact .inr ⟨(name, entry) :: done, name', entry', rest, r₁, rfl,
            .cons hr hf hserial hl, hend⟩

end Registry

end NamedStores
