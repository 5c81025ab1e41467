/-
What a startup without a fatal failure guarantees to the stores that must be connected. Each of
them is connected, unless the startup of its section was stopped, without a fatal failure, by
an entry that need not be connected. Loading stops at the first entry that is no object or
has unusable settings, and then nothing of the section is connected; connecting stops at the
first store that cannot be reached, and then what comes after it is not connected.
-/
import NamedStores.KeyValue.Memory
import NamedStores.Proofs.Registry.Visit
import NamedStores.Sqlite.Driver
import NamedStores.Startup

namespace NamedStores

theorem Configuration.contains_of_section? {c : Configuration} {part : String} {records : Record}
    (hs : c.section? part = some records) : c.contains part = true := by
  simp only [Configuration.section?, Option.bind_eq_some_iff] at hs
  obtain ⟨v, hg, -⟩ := hs
  simp [Configuration.contains, SortedMap.contains, hg]

namespace Registry

variable {ω σ κ : Type}

theorem load_empty {b : Backend ω σ κ} {c : Configuration} {part part₀ : String}
    {records : Record} (hs : c.section? part = some records) :
    (Registry.empty c part₀ : Registry σ κ).load b part =
      loadEntries b part records (Registry.empty c part₀) := by
  simp [load, Registry.empty, hs]

theorem loaded_of_ok {b : Backend ω σ κ} {c : Configuration} {part part₀ : String}
    {records : Record} (ho : SortedMap.Ordered records) (hs : c.section? part = some records)
    {r : Registry σ κ} {u : Unit}
    (hl : loadEntries b part records (Registry.empty c part₀) = (.ok u, r)) :
    Loaded b part records (Registry.empty c part₀) r := by
  rcases loadEntries_cases ho (fun _ h => h) hs hl with
    ⟨-, hloaded⟩ | ⟨_, _, _, _, _, _, _, ⟨-, hend, -⟩ | ⟨_, _, -, -, hend, -⟩⟩
  · exact hloaded
  · cases hend
  · cases hend

/-- A handle of this name is registered, and it is connected. -/
def IsConnected (r : Registry σ κ) (name : String) : Prop :=
  ∃ h, r.handles.get? name = some h ∧ h.status = .connected

theorem isConnected_iff {r : Registry σ κ} {name : String} :
    r.IsConnected name ↔ (r.handles.get? name).map Handle.status = some .connected :=
  Option.map_eq_some_iff.symm

instance (r : Registry σ κ) (name : String) : Decidable (r.IsConnected name) :=
  decidable_of_iff _ isConnected_iff.symm

/-- Loading connects nothing. -/
theorem Loaded.not_connected {b : Backend ω σ κ} {part : String} {entries : Record}
    (ho : SortedMap.Ordered entries) {c : Configuration} {part₀ : String} {r : Registry σ κ}
    (hl : Loaded b part entries (Registry.empty c part₀) r) {name : String} {h : Handle σ κ}
    (hg : r.handles.get? name = some h) : h.client = none := by
  rcases hl.of_get? ho hg with hg | ⟨_, _, _, _, hf⟩
  · simp [Registry.empty, SortedMap.get?] at hg
  · exact hf.client

/-- Every handle of a loaded section is that of an entry that is an object. -/
theorem Loaded.entry_of_mem {b : Backend ω σ κ} {part : String} {entries : Record}
    (ho : SortedMap.Ordered entries) {c : Configuration} {part₀ : String} {r : Registry σ κ}
    (hl : Loaded b part entries (Registry.empty c part₀) r) (hr : r.WellNamed) {name : String}
    {h : Handle σ κ} (hm : (name, h) ∈ r.handles) :
    ∃ record, (name, .object record) ∈ entries ∧ FromRecord b part name record h := by
  rcases hl.of_get? ho (hr.ordered.get?_eq_some_iff.2 hm) with hg | ⟨entry, record, he, hrec, hf⟩
  · simp [Registry.empty, SortedMap.get?] at hg
  · cases entry <;> simp only [Json.record?, Option.some.injEq, reduceCtorEq] at hrec
    exact ⟨record, hrec ▸ he, hf⟩

/-- A bulk connect selects all handles, or those whose records say so. -/
theorem FromRecord.selects_iff {b : Backend ω σ κ} {part name : String} {record : Record}
    {h : Handle σ κ} (hf : FromRecord b part name record h) {all : Bool} :
    selects all h = true ↔
      all = true ∨ record.get? "is_connect_at_start" = some (.bool true) := by
  rw [selects, Bool.or_eq_true, hf.policy.atStart]

/-- A loaded handle that a bulk connect selects is connected once it was visited. -/
theorem Visits.connected {b : Backend ω σ κ} {c : Configuration} {part part' name : String}
    {all : Bool} {hs hs' : List (String × Handle σ κ)} {w w' : ω}
    (hv : Visits (connectStep b c part (selects all)) hs w hs' w') {h : Handle σ κ}
    (hm : (name, h) ∈ hs) {record : Record} (hf : FromRecord b part' name record h)
    (hsel : selects all h = true) :
    ∃ h', (name, h') ∈ hs' ∧ h'.status = .connected := by
  obtain ⟨h', w₁, w₂, hm', hstep⟩ := hv.mem hm
  obtain ⟨s, -, hset⟩ := hf.settings
  refine ⟨h', hm', Handle.status_connected.2 ?_⟩
  rcases connectStep_of_settings hset hstep with
    ⟨-, -, -, hn | hk⟩ | ⟨-, -, refusal, -, -, hr⟩ | ⟨-, -, client, -, -, rfl⟩
  · simp [hsel] at hn
  · simp [hf.client] at hk
  · cases hr
  · rfl

end Registry

namespace Startup

variable {ω σ κ ω' σ' κ' : Type}

/-- A record whose store is to be connected: all are, or it says so itself. -/
def Wanted (all : Bool) (records : Record) (name : String) (record : Record) : Prop :=
  (name, .object record) ∈ records ∧
    (all = true ∨ record.get? "is_connect_at_start" = some (.bool true))

def Mandatory (record : Record) : Prop := record.get? "must_connected" = some (.bool true)

/-- Loading stopped at an entry that is no object, or whose optional store has unusable settings;
no store of the section is connected. -/
def Unloaded (b : Backend ω σ κ) (records : Record) (r : Registry σ κ) : Prop :=
  (∃ name entry, (name, entry) ∈ records ∧
    (entry.record? = none ∨
      ∃ record d, entry.record? = some record ∧ ¬ Mandatory record ∧
        b.readSettings record = .error d)) ∧
    ∀ name, ¬ r.IsConnected name

/-- Connecting stopped at an optional store before this one; all before that are connected. -/
def StoppedBefore (all : Bool) (records : Record) (r : Registry σ κ) (name : String) : Prop :=
  ∃ name₀ record₀, name₀ < name ∧ Wanted all records name₀ record₀ ∧ ¬ Mandatory record₀ ∧
    ¬ r.IsConnected name₀ ∧
    ∀ name' record', Wanted all records name' record' → name' < name₀ → r.IsConnected name'

/-- Mandatory stores that are to be connected are, unless an entry that is not mandatory stopped
the startup of the section. -/
def Upheld (b : Backend ω σ κ) (all : Bool) (records : Record) (r : Registry σ κ) : Prop :=
  ∀ name record, Wanted all records name record → Mandatory record →
    r.IsConnected name ∨ Unloaded b records r ∨ StoppedBefore all records r name

/-- A failure that keeps a handle unconfigured or unconnected is fatal if the handle is mandatory. -/
theorem isFatal_handle {name : String} {must isConfiguring : Bool} {t : Trouble}
    (ht : (∃ d, t = .setback (.defect d)) ∨ ∃ refusal, t = .refused refusal) :
    (Stop.handle name must t isConfiguring).failure.isFatal = must := by
  rcases ht with ⟨d, rfl⟩ | ⟨refusal, rfl⟩
  · cases must <;> rfl
  · rfl

theorem upheld_of_unloaded {b : Backend ω σ κ} {part part₀ : String} {all : Bool}
    {c : Configuration} {records : Record} (ho : SortedMap.Ordered records)
    {r : Registry σ κ} {stop : Stop} (hf : stop.failure.isFatal = false)
    (he : Registry.loadEntries b part records (Registry.empty c part₀) = (.error stop, r))
    (hs : c.section? part = some records) : Upheld b all records r := by
  refine fun _ _ _ _ => .inr (.inl ?_)
  rcases Registry.loadEntries_cases ho (fun _ h => h) hs he with
    ⟨hok, -⟩ | ⟨done, name, entry, rest, r₁, rfl, hl, hend⟩
  · cases hok
  have hdone : SortedMap.Ordered done := (List.pairwise_append.1 ho).1
  rcases hend with ⟨hn, -, rfl⟩ | ⟨record, d, hr, hd, hstop, rfl⟩
  · refine ⟨⟨name, entry, by simp, .inl hn⟩, ?_⟩
    rintro name' ⟨h, hg, hc⟩
    simp [Handle.status_connected, hl.not_connected hdone hg] at hc
  · cases hstop
    rw [isFatal_handle (.inl ⟨d, rfl⟩)] at hf
    have optional : ¬ Mandatory record := fun mandatory => by
      rw [(ConnectPolicy.ofRecord_givenBy record).must.mpr mandatory] at hf
      cases hf
    refine ⟨⟨name, entry, by simp, .inr ⟨record, d, hr, optional, hd⟩⟩, ?_⟩
    rintro name' ⟨h, hg, hc⟩
    -- The handle that took no settings is the only one that loading the entries before lacks.
    have hk : h.client = none := by
      by_cases hn : name' = name
      · subst hn
        have hself := SortedMap.get?_insert_self r₁.handles name'
          (Handle.create name' (ConnectPolicy.ofRecord record) part r₁.nextSerial : Handle σ κ)
        cases hself.symm.trans hg
        rfl
      · exact hl.not_connected hdone ((SortedMap.get?_insert_other _ _ hn).symm.trans hg)
    simp [Handle.status_connected, hk] at hc

/-- A wanted record has its handle in the registry that its section was loaded into. -/
theorem Wanted.handle {b : Backend ω σ κ} {part name : String} {all : Bool} {records : Record}
    {record : Record} (hw : Wanted all records name record) (ho : SortedMap.Ordered records)
    {r₀ r : Registry σ κ} (hl : Registry.Loaded b part records r₀ r) (hr : r.WellNamed) :
    ∃ h, (name, h) ∈ r.handles ∧ Registry.FromRecord b part name record h := by
  obtain ⟨record', h, hr', hg, hf⟩ := hl.get?_entry ho hw.1
  cases hr'
  exact ⟨h, hr.ordered.get?_eq_some_iff.1 hg, hf⟩

/-- A store that stops the connecting without a fatal failure was to be connected, is optional,
and is not connected. -/
theorem optional_of_stopped {b : Backend ω σ κ} {c : Configuration} {part part' name : String}
    {all : Bool} {record : Record} {h h' : Handle σ κ} {w w' : ω} {stop : Stop}
    (hfr : Registry.FromRecord b part' name record h)
    (hstep : Registry.connectStep b c part (Registry.selects all) h w = (.error stop, h', w'))
    (hf : stop.failure.isFatal = false) :
    (all = true ∨ record.get? "is_connect_at_start" = some (.bool true)) ∧ ¬ Mandatory record ∧
      h'.status ≠ .connected := by
  obtain ⟨s, -, hset⟩ := hfr.settings
  obtain ⟨hsel, hk, rfl, refusal, -, rfl⟩ := Registry.connectStep_error hset hstep
  rw [isFatal_handle (.inr ⟨refusal, rfl⟩)] at hf
  refine ⟨hfr.selects_iff.mp hsel, fun mandatory => ?_, fun hc => ?_⟩
  · rw [hfr.policy.must.mpr mandatory] at hf
    cases hf
  have held := Handle.status_connected.1 hc
  simp [hk] at held

theorem upheld_of_loaded {b : Backend ω σ κ} {part part₀ : String} {all : Bool}
    {c : Configuration} {records : Record} (ho : SortedMap.Ordered records)
    {r r' : Registry σ κ} {w w' : ω} {result : Except Stop Unit}
    (hf : ∀ stop, result = .error stop → stop.failure.isFatal = false)
    (hl : Registry.Loaded b part records (Registry.empty c part₀) r)
    (he : Registry.connectSelected b part (Registry.selects all) r w = (result, r', w')) :
    Upheld b all records r' := by
  have hr : r.WellNamed := hl.wellNamed .empty
  rcases hv : Registry.visit (Registry.connectStep b r.configuration part (Registry.selects all))
    r.handles w with ⟨result', hs', w₁⟩
  simp only [Registry.connectSelected, hv] at he
  cases he
  have hs' : SortedMap.Ordered hs' := hr.of_keys (Registry.visit_keys hv)
  intro name record hw hmust
  obtain ⟨h, hm, hfr⟩ := hw.handle ho hl hr
  rcases Registry.visit_cases hv with
    ⟨-, hall⟩ | ⟨stop, before, before', name₀, h₀, h₀', after, w₂, rfl, hsplit, rfl, hb, hstep⟩
  · obtain ⟨h', hm', hc⟩ := hall.connected hm hfr (hfr.selects_iff.mpr hw.2)
    exact .inl ⟨h', hs'.get?_eq_some_iff.2 hm', hc⟩
  have hord : SortedMap.Ordered (before ++ (name₀, h₀) :: after) := hsplit ▸ hr.ordered
  -- Whatever is wanted and stands before the handle that failed is connected.
  have earlier : ∀ name' record', Wanted all records name' record' → name' < name₀ → ∃ h'',
      SortedMap.get? (before' ++ (name₀, h₀') :: after) name' = some h'' ∧
        h''.status = .connected := by
    intro name' record' hw' hlt
    obtain ⟨h', hm', hfr'⟩ := hw'.handle ho hl hr
    obtain ⟨h'', hm'', hc⟩ := hb.connected (hord.mem_before (hsplit ▸ hm') hlt) hfr'
      (hfr'.selects_iff.mpr hw'.2)
    exact ⟨h'', hs'.get?_eq_some_iff.2 (List.mem_append_left _ hm''), hc⟩
  -- The handle that failed is that of an entry which is not mandatory.
  obtain ⟨record₀, he₀, hfr₀⟩ := hl.entry_of_mem ho hr (hsplit ▸ List.mem_append_right before
    (List.mem_cons_self (a := (name₀, h₀)) (l := after)))
  obtain ⟨hsel₀, hopt, hnot⟩ := optional_of_stopped hfr₀ hstep (hf _ rfl)
  rcases hord.cases_of_mem (hsplit ▸ hm) with hlt | heq | hgt
  · exact .inl (earlier name record hw hlt)
  · cases heq
    exact absurd (hfr₀.policy.must.mp (hfr.policy.must.mpr hmust)) hopt
  · refine .inr (.inr ⟨name₀, record₀, hgt, ⟨he₀, hsel₀⟩, hopt, ?_, earlier⟩)
    rintro ⟨h', hg, hc⟩
    have hg₀ := hs'.get?_eq_some_iff.2
      (List.mem_append_right before' (List.mem_cons_self (a := (name₀, h₀')) (l := after)))
    cases hg₀.symm.trans hg
    exact hnot hc

theorem tolerate_eq_none {kind : Kind} {result : Except Stop Unit} :
    (tolerate kind result).1 = none ↔
      ∀ stop, result = .error stop → stop.failure.isFatal = false := by
  cases result with
  | ok u => simp [tolerate]
  | error stop => cases hf : stop.failure.isFatal <;> simp [tolerate, hf]

theorem start_upheld {b : Backend ω σ κ} {part part₀ : String} {all : Bool} {c : Configuration}
    (hc : c.Ordered) {w : ω} {result : Except Stop Unit} {s : Stores ω σ κ}
    (hf : ∀ stop, result = .error stop → stop.failure.isFatal = false)
    (he : Stores.start b part all ⟨Registry.empty c part₀, w⟩ = (result, s)) :
    Upheld b all ((c.section? part).getD []) s.registry := by
  cases hs : c.section? part with
  | none =>
    rintro name record ⟨hm, -⟩
    simp at hm
  | some records =>
    have ho : SortedMap.Ordered records := hc part records hs
    have own : (Registry.empty c part₀ : Registry σ κ).configuration = c := rfl
    rcases hl : Registry.loadEntries b part records (Registry.empty c part₀) with ⟨loaded, r⟩
    simp only [Stores.start, own, Configuration.contains_of_section? hs, if_true,
      Registry.load_empty hs, hl] at he
    cases loaded with
    | error stop =>
      cases he
      exact upheld_of_unloaded ho (hf stop rfl) hl hs
    | ok u =>
      rcases hv : Registry.connectSelected b part (Registry.selects all) r w with ⟨result', r', w'⟩
      simp only [Registry.connect_eq, hv] at he
      cases he
      exact upheld_of_loaded ho hf (Registry.loaded_of_ok ho hs hl) hv

/-- **What `must_connected` guarantees.** When a document was read and neither kind of stores
met a fatal failure, the mandatory stores of both sections that are to be connected are
connected, unless an entry that is not mandatory stopped the startup of its section. -/
theorem mandatory_stores_upheld {document : Bytes} {c : Configuration}
    (hc : Configuration.ofOctets document = .ok c) {b : Backend ω σ κ} {b' : Backend ω' σ' κ'}
    {o : Options} {w : ω} {w' : ω'} (hf : (Launch.ofConfiguration b b' o c w w').fatal = none) :
    let l := Launch.ofConfiguration b b' o c w w'
    Upheld b o.connectAll ((c.section? o.databaseSection).getD []) l.databases.registry ∧
      Upheld b' o.connectAll ((c.section? o.redisSection).getD []) l.redis.registry := by
  have ho : c.Ordered := Configuration.ofOctets_ordered hc
  rcases hd : Stores.start b o.databaseSection o.connectAll
    (⟨Registry.empty c "databases", w⟩ : Stores ω σ κ) with ⟨result, databases⟩
  rcases hr : Stores.start b' o.redisSection o.connectAll
    (⟨Registry.empty c "redis", w'⟩ : Stores ω' σ' κ') with ⟨result', redis⟩
  rcases ht : tolerate b.kind result with ⟨fatal, events⟩
  cases fatal with
  | some f => simp [Launch.ofConfiguration, hd, ht] at hf
  | none =>
    have hnone : (tolerate b'.kind result').1 = none := by
      simpa [Launch.ofConfiguration, hd, hr, ht] using hf
    simp only [Launch.ofConfiguration, hd, hr, ht]
    exact ⟨start_upheld ho (tolerate_eq_none.1 (by rw [ht])) hd,
      start_upheld ho (tolerate_eq_none.1 hnone) hr⟩

/-! ## Two startups -/

def checkOptions : Options := ⟨"app.json", "databases", "redis", false, true, "off", false⟩

/-- The document that the text of a value is read as. -/
def documentOf (v : Json) : Configuration :=
  (Configuration.ofOctets v.octets).toOption.getD Configuration.empty

theorem ofOctets_documentOf {v : Json} (h : (Configuration.ofOctets v.octets).isOk = true) :
    Configuration.ofOctets v.octets = .ok (documentOf v) := by
  unfold documentOf
  cases ht : Configuration.ofOctets v.octets with
  | error f => simp [ht, Except.isOk, Except.toBool] at h
  | ok c => rfl

/-- The launch of a document with SQLite and a Redis server in memory. -/
def launchOf (v : Json) :
    Launch Sqlite.World Sql.Settings (Sql.Live Sqlite.Client) KeyValue.Server KeyValue.Settings
      KeyValue.Client :=
  Launch.ofConfiguration Sqlite.driver.backend KeyValue.Memory.driver.backend checkOptions
    (documentOf v) (Sqlite.World.fresh ["", "/", "/tmp"]) KeyValue.Server.fresh

/-- The record of a store that connects at start. -/
def atStart (address : String) (must : Bool) : Json :=
  Json.fields [("address", .string address), ("is_connect_at_start", .bool true),
    ("must_connected", .bool must)]

def recordOf (c : Configuration) (part name : String) : Record :=
  ((((c.section? part).getD []).get? name).bind Json.record?).getD []

theorem mem_recordOf {c : Configuration} {part name : String}
    (h : ((((c.section? part).getD []).get? name).bind Json.record?).isSome = true) :
    (name, .object (recordOf c part name)) ∈ (c.section? part).getD [] := by
  obtain ⟨record, hr⟩ := Option.isSome_iff_exists.1 h
  obtain ⟨v, hg, hv⟩ := Option.bind_eq_some_iff.1 hr
  have hrec : recordOf c part name = record := by rw [recordOf, hr, Option.getD_some]
  cases v <;> simp only [Json.record?, Option.some.injEq, reduceCtorEq] at hv
  rw [hrec, ← hv]
  exact SortedMap.mem_of_get? hg

/-- Two mandatory databases, and between them an optional one that has no file. -/
def refusedBetween : Json :=
  Json.fields [
    ("databases", Json.fields [
      ("a", atStart "sqlite::memory:" true), ("b", atStart "sqlite:/missing/b.db" false),
      ("c", atStart "sqlite::memory:" true)]),
    ("redis", Json.fields [("r", atStart "localhost" true)])]

/-- The record of a database in that document. -/
def refusedRecord (name : String) : Record := recordOf (documentOf refusedBetween) "databases" name

theorem refused_store_between_mandatory_ones :
    Configuration.ofOctets refusedBetween.octets = .ok (documentOf refusedBetween) ∧
      (launchOf refusedBetween).fatal = none ∧
      (let records := ((documentOf refusedBetween).section? checkOptions.databaseSection).getD []
      let databases := (launchOf refusedBetween).databases.registry
      Upheld Sqlite.driver.backend checkOptions.connectAll records databases ∧
        (∀ name ∈ ["a", "b", "c"], Wanted false records name (refusedRecord name)) ∧
        Mandatory (refusedRecord "a") ∧ databases.IsConnected "a" ∧
        ¬ Mandatory (refusedRecord "b") ∧ ¬ databases.IsConnected "b" ∧
        Mandatory (refusedRecord "c") ∧ ¬ databases.IsConnected "c" ∧
        StoppedBefore checkOptions.connectAll records databases "c") ∧
      Upheld KeyValue.Memory.driver.backend checkOptions.connectAll
        (((documentOf refusedBetween).section? checkOptions.redisSection).getD [])
        (launchOf refusedBetween).redis.registry := by
  have hc : Configuration.ofOctets refusedBetween.octets = .ok (documentOf refusedBetween) :=
    ofOctets_documentOf (by decide +kernel)
  have hf : (launchOf refusedBetween).fatal = none := by decide +kernel
  have connected : (launchOf refusedBetween).databases.registry.IsConnected "a" := by decide +kernel
  have unreached : ¬ (launchOf refusedBetween).databases.registry.IsConnected "c" := by
    decide +kernel
  have wanted : ∀ name ∈ ["a", "b", "c"],
      Wanted false (((documentOf refusedBetween).section? "databases").getD []) name
        (refusedRecord name) := by
    intro name listed
    simp only [List.mem_cons, List.not_mem_nil, or_false] at listed
    rcases listed with rfl | rfl | rfl <;>
      exact ⟨mem_recordOf (by decide +kernel), .inr (ConnectPolicy.flag_iff.mp (by decide +kernel))⟩
  have last : Mandatory (refusedRecord "c") := ConnectPolicy.flag_iff.mp (by decide +kernel)
  have optional : ¬ Mandatory (refusedRecord "b") := fun mandatory =>
    absurd (ConnectPolicy.flag_iff.mpr mandatory) (by decide +kernel)
  have refused : ¬ (launchOf refusedBetween).databases.registry.IsConnected "b" := by
    decide +kernel
  unfold launchOf at hf connected unreached refused ⊢
  obtain ⟨databases, redis⟩ := mandatory_stores_upheld hc hf
  refine ⟨hc, hf, ⟨databases, wanted, ConnectPolicy.flag_iff.mp (by decide +kernel), connected,
    optional, refused, last, unreached, ?_⟩, redis⟩
  rcases databases "c" _ (wanted "c" (by simp)) last with there | ⟨-, none⟩ | stopped
  · exact absurd there unreached
  · exact absurd connected (none "a")
  · exact stopped

/-- A mandatory database behind an optional one of no known product. -/
def unusableFirst : Json :=
  Json.fields [("databases", Json.fields [
    ("a", atStart "oracle://h" false), ("b", atStart "sqlite::memory:" true)])]

/-- Without a fatal failure a mandatory store that is to be connected may yet not be. -/
theorem mandatory_store_not_connected :
    Configuration.ofOctets unusableFirst.octets = .ok (documentOf unusableFirst) ∧
      (launchOf unusableFirst).fatal = none ∧
      ∃ record, Wanted false (((documentOf unusableFirst).section? "databases").getD []) "b" record ∧
        Mandatory record ∧ ¬ (launchOf unusableFirst).databases.registry.IsConnected "b" := by
  refine ⟨ofOctets_documentOf (by decide +kernel), by decide +kernel,
    recordOf (documentOf unusableFirst) "databases" "b",
    ⟨mem_recordOf (by decide +kernel), .inr (ConnectPolicy.flag_iff.mp (by decide +kernel))⟩,
    ConnectPolicy.flag_iff.mp (by decide +kernel), by decide +kernel⟩

end Startup

end NamedStores
