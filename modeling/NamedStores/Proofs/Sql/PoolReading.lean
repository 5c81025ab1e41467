/-
The two readings of pool options. A text of its own is read strictly: a known field must not come
twice, and must hold null or a whole number that fits it; the rest is passed over. Of a record only
the numbers that fit are taken, and of a field that came twice only the last. Where the strict
reading gives anything, none of this differs; and of options that were written it gives them back.
-/
import NamedStores.Proofs.Json.Fields
import NamedStores.Sql.PoolOptions

namespace NamedStores.Sql.PoolOptions

/-! ## The fields -/

def fields : List (String × Json.Shape) := [
  ("max_connections", .optional (.unsigned 32)),
  ("min_connections", .optional (.unsigned 32)),
  ("idle_timeout_secs", .optional (.unsigned 64)),
  ("acquire_timeout_secs", .optional (.unsigned 64)),
  ("query_timeout_secs", .optional (.unsigned 64))]

theorem shape_eq : shape = .structure "PoolOptions" fields := rfl

/-- A field takes null, and the numbers that fit it. -/
def takes : Json.Shape → Json → Bool
  | .optional (.unsigned bits) => Json.orNull fun v => (v.unsigned? bits).isSome
  | _ => fun _ => false

theorem mem_fields {f : String × Json.Shape} (h : f ∈ fields) :
    ∃ bits, f.2 = .optional (.unsigned bits) := by
  simp only [fields, List.mem_cons, List.not_mem_nil, or_false] at h
  rcases h with rfl | rfl | rfl | rfl | rfl <;> exact ⟨_, rfl⟩

theorem fields_judge : ∀ f ∈ fields, Json.Judges 2 f.2 (takes f.2) := by
  intro f hf
  obtain ⟨bits, shape⟩ := mem_fields hf
  rw [shape]
  exact Json.judges_optional (Json.judges_unsigned bits)

theorem fields_optional : ∀ f ∈ fields, f.2.isOptional = true := by
  intro f hf
  obtain ⟨bits, shape⟩ := mem_fields hf
  rw [shape]
  rfl

/-! ## One reading beside the other -/

/-- What a record says of an option, if it says a number that fits. -/
def option (record : Record) (field : String) (bits : Nat) : Option Nat :=
  (record.get? field).bind (Json.unsigned? bits)

theorem ofRecord_eq (record : Record) : ofRecord record =
    ⟨option record "max_connections" 32, option record "min_connections" 32,
      option record "idle_timeout_secs" 64, option record "acquire_timeout_secs" 64,
      option record "query_timeout_secs" 64⟩ := rfl

/-- A field that is left out, or null, is no option either way. -/
theorem option_completed (es : List (String × Json)) {field : String}
    (isKnown : (fields.find? (·.1 = field)).isSome = true) (bits : Nat) :
    option (Json.completed fields (Json.known fields es).reverse) field bits =
      option (SortedMap.ofList es) field bits := by
  rw [option, option, Json.get?_completed isKnown, Json.find?_known isKnown]
  cases (SortedMap.ofList es).get? field <;> rfl

/-- The strict reading gives what the record says, if it gives anything: the entries decide it. -/
theorem ofOctets_of_spells {bs : Bytes} {es : List (String × Json)} (spells : Json.Spells bs es) :
    (ofOctets bs).toOption =
      (Json.gather fields takes [] es).map fun _ => ofRecord (SortedMap.ofList es) := by
  have read := Json.ofOctetsAs_structure fields_judge fields_optional spells (by decide)
    "PoolOptions"
  rw [← shape_eq] at read
  have given : (ofOctets bs).toOption =
      (Json.ofOctetsAs shape bs).toOption.map fun v => ofRecord (v.record?.getD []) := by
    rw [ofOctets]
    cases Json.ofOctetsAs shape bs <;> rfl
  rw [given, read, Option.map_map]
  cases gathered : Json.gather fields takes [] es with
  | none => rfl
  | some got =>
    have all : got = (Json.known fields es).reverse := by
      rw [Json.gather_eq_some gathered, List.append_nil]
    subst all
    have same : ofRecord (Json.completed fields (Json.known fields es).reverse) =
        ofRecord (SortedMap.ofList es) := by
      rw [ofRecord_eq, ofRecord_eq, option_completed es (by decide), option_completed es (by decide),
        option_completed es (by decide), option_completed es (by decide),
        option_completed es (by decide)]
    exact congrArg some same

/-! ## What is written -/

/-- The numbers fit the words that hold them. -/
structure Fits (o : PoolOptions) : Prop where
  max : ∀ n ∈ o.maxConnections, n < 0x100000000
  min : ∀ n ∈ o.minConnections, n < 0x100000000
  idle : ∀ n ∈ o.idleSeconds, n < 0x10000000000000000
  acquire : ∀ n ∈ o.acquireSeconds, n < 0x10000000000000000
  query : ∀ n ∈ o.querySeconds, n < 0x10000000000000000

/-- An option as it is written. -/
def number (n : Option Nat) : Json := Json.ofOption (n.map fun n => .integer n)

/-- Options as a record. -/
def written (o : PoolOptions) : Record := SortedMap.ofList o.entries

theorem json_eq (o : PoolOptions) : o.json = .object o.written := rfl

theorem nodup_entries (o : PoolOptions) : (o.entries.map (·.1)).Nodup := by
  have names : o.entries.map (·.1) = fields.map (·.1) := rfl
  rw [names]
  decide

theorem unsigned?_number {n : Option Nat} {bits : Nat} (fits : ∀ k ∈ n, k < Nat.pow 2 bits) :
    (number n).unsigned? bits = n := by
  cases n with
  | none => rfl
  | some k => exact Json.unsigned?_eq_some.mpr ⟨rfl, fits k rfl⟩

theorem takes_number {n : Option Nat} {bits : Nat} (fits : ∀ k ∈ n, k < Nat.pow 2 bits) :
    takes (.optional (.unsigned bits)) (number n) = true := by
  cases n with
  | none => rfl
  | some k => exact Option.isSome_iff_exists.mpr ⟨k, unsigned?_number fits⟩

theorem readable_number {n : Option Nat} (fits : ∀ k ∈ n, k < 0x10000000000000000) :
    Json.Readable (Json.nestingLimit - 1) (number n) := by
  have flat : 0 < Json.nestingLimit - 1 := by decide
  cases n with
  | none => exact ⟨.null, .null, flat⟩
  | some k =>
    have := fits k rfl
    exact ⟨.integer k (by omega) (by omega), .integer _, flat⟩

section Written

variable {o : PoolOptions} (fits : o.Fits)

include fits

/-- What is written of each field. -/
theorem entries_cases {e : String × Json} (h : e ∈ o.entries) : ∃ bits n, bits ≤ 64 ∧
    fields.find? (·.1 = e.1) = some (e.1, .optional (.unsigned bits)) ∧ e.2 = number n ∧
      ∀ k ∈ n, k < Nat.pow 2 bits := by
  simp only [entries, List.mem_cons, List.not_mem_nil, or_false] at h
  rcases h with rfl | rfl | rfl | rfl | rfl
  · exact ⟨32, o.maxConnections, by decide, rfl, rfl, fits.max⟩
  · exact ⟨32, o.minConnections, by decide, rfl, rfl, fits.min⟩
  · exact ⟨64, o.idleSeconds, by decide, rfl, rfl, fits.idle⟩
  · exact ⟨64, o.acquireSeconds, by decide, rfl, rfl, fits.acquire⟩
  · exact ⟨64, o.querySeconds, by decide, rfl, rfl, fits.query⟩

theorem ofRecord_written : ofRecord o.written = o := by
  have read {field : String} {bits : Nat} {n : Option Nat} (small : ∀ k ∈ n, k < Nat.pow 2 bits)
      (there : o.written.get? field = some (number n)) : option o.written field bits = n := by
    rw [option, there]
    exact unsigned?_number small
  rw [ofRecord_eq, read fits.max, read fits.min, read fits.idle, read fits.acquire, read fits.query]
  all_goals
    rw [written, SortedMap.get?_ofList]
    rfl

/-- Both readings give options back from a text with their fields, in the order of their names or
as they are declared. -/
theorem readings_of_entries {es : List (String × Json)} (listed : ∀ e ∈ es, e ∈ o.entries)
    (apart : (es.map (·.1)).Nodup) (same : SortedMap.ofList es = o.written) :
    ofOctets (Json.object es).octets = .ok o ∧
      ∃ m, Json.ofOctets (Json.object es).octets = .ok (.object m) ∧ ofRecord m = o := by
  have spells : Json.Spells (Json.object es).octets es := Json.spells_octets fun e he => by
    obtain ⟨bits, n, small, -, written, bound⟩ := entries_cases fits (listed e he)
    rw [written]
    exact readable_number fun k hk =>
      Nat.lt_of_lt_of_le (bound k hk) (Nat.pow_le_pow_right (by decide) small)
  have taken : ∀ e ∈ es, ∃ f, fields.find? (·.1 = e.1) = some f ∧ takes f.2 e.2 = true := by
    intro e he
    obtain ⟨bits, n, -, found, written, bound⟩ := entries_cases fits (listed e he)
    exact ⟨_, found, by rw [written]; exact takes_number bound⟩
  constructor
  · have read := ofOctets_of_spells spells
    rw [Json.gather_of_taken taken apart fun _ _ => List.not_mem_nil, same, ofRecord_written fits,
      Option.map_some] at read
    exact toOption_eq_some.mp read
  · exact ⟨o.written, same ▸ spells.ofOctets, ofRecord_written fits⟩

end Written

/-- **Both readings of pool options agree.** Of a text that is an object and that the strict reading
takes, the record says the same five options; and options whose numbers fit come back from what is
written of them, by either reading, be it the text of their record or the one whose fields come as
they are declared. -/
theorem pool_readings_agree :
    (∀ bs m o, Json.ofOctets bs = .ok (.object m) → ofOctets bs = .ok o → ofRecord m = o) ∧
      ∀ o : PoolOptions, o.Fits → ∀ bs, bs = o.json.octets ∨ bs = o.octets → ofOctets bs = .ok o ∧
        ∃ m, Json.ofOctets bs = .ok (.object m) ∧ ofRecord m = o := by
  refine ⟨fun bs m o read strict => ?_, fun o fits bs text => ?_⟩
  · obtain ⟨es, spells, rfl⟩ := Json.spells_of_ofOctets read
    have agree := ofOctets_of_spells spells
    rw [strict] at agree
    obtain ⟨got, -, same⟩ := Option.map_eq_some_iff.mp agree.symm
    exact same
  · rcases text with rfl | rfl
    · have ordered : SortedMap.Ordered o.written := SortedMap.ofList_ordered _
      rw [json_eq]
      exact readings_of_entries fits (fun e he => SortedMap.mem_of_mem_ofList he) ordered.nodup_keys
        ordered.ofList_eq
    · exact readings_of_entries fits (fun e he => he) o.nodup_entries rfl

/-- The record that a text is read as. -/
def recordOf (bs : Bytes) : Record := ((Json.ofOctets bs).toOption.bind Json.record?).getD []

theorem ofOctets_recordOf {bs : Bytes}
    (h : ((Json.ofOctets bs).toOption.bind Json.record?).isSome = true) :
    Json.ofOctets bs = .ok (.object (recordOf bs)) := by
  rw [recordOf]
  cases read : Json.ofOctets bs with
  | error message => rw [read] at h; cases h
  | ok v =>
    rw [read] at h
    cases v <;> first | rfl | cases h

/-- Blanks, a null, and unknown fields that come twice, one of them with a bracket in its text. -/
def scattered : Bytes := Utf8.ofString
  " \x7b\"x\": [\"]\\n\"], \"min_connections\": null ,\"max_connections\":20, \"x\":-1e3\x7d"

theorem scattered_options_agree :
    let o : PoolOptions := ⟨some 20, none, none, none, none⟩
    Json.ofOctets scattered = .ok (.object (recordOf scattered)) ∧
      (recordOf scattered).keys = ["max_connections", "min_connections", "x"] ∧
      ofOctets scattered = .ok o ∧ ofRecord (recordOf scattered) = o ∧
      o.Fits ∧ ofOctets o.json.octets = .ok o ∧ ofOctets o.octets = .ok o := by
  intro o
  have read : Json.ofOctets scattered = .ok (.object (recordOf scattered)) :=
    ofOctets_recordOf (by decide +kernel)
  have strict : ofOctets scattered = .ok o := toOption_eq_some.mp (by decide +kernel)
  have fits : o.Fits := by constructor <;> simp [o]
  exact ⟨read, by decide +kernel, strict, pool_readings_agree.1 _ _ o read strict, fits,
    (pool_readings_agree.2 o fits _ (.inl rfl)).1, (pool_readings_agree.2 o fits _ (.inr rfl)).1⟩

end NamedStores.Sql.PoolOptions
