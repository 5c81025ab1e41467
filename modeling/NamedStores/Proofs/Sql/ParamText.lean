/-
Parameters through JSON text. A list that is written and read again gives a list of the same length,
whose parameters are of the same kinds and, doubles excepted, the same. A double is written with as
few digits as tell it from all others, but the reader scales them with rounded numbers, so that it
may end up next to where it was.

The values in between are not to blame: what a list is written as reads as the list itself.
-/
import NamedStores.Proofs.Json.Float
import NamedStores.Proofs.Json.RoundTrip
import NamedStores.Proofs.Sql.Param

namespace NamedStores.Sql.Param

open Json (Integral Ordered Readable comma writeItems EndsNumber)

/-- What a parameter is after it was written and read. -/
inductive Returns : Param → Param → Prop
  | same {p : Param} : (∀ x, p ≠ .float x) → Returns p p
  | float {x y : Double} : Json.Number.ComesBack x y → Returns (.float x) (.float y)

theorem Returns.finite {p q : Param} (h : Returns p q) : Finite q := by
  cases h with
  | same plain =>
    cases p with
    | float x => exact absurd rfl (plain x)
    | null | bool | int | text | bytes => trivial
  | float comes => exact comes.finite

theorem Returns.eq {p q : Param} (h : Returns p q) (exact : ∀ x, p = .float x → Json.Number.Exact x) :
    q = p := by
  cases h with
  | same => rfl
  | @float x y comes => rw [comes.same (exact x rfl)]

/-! ## One parameter -/

theorem ordered_json (p : Param) : Ordered p.json := by
  cases p with
  | null => exact .null
  | bool b => exact .bool b
  | int n => exact .integer _
  | float x =>
    rw [json, Json.ofDouble]
    split
    · exact .float x
    · exact .null
  | text s => exact .string s
  | bytes bs =>
    refine .array fun v hv => ?_
    obtain ⟨b, -, rfl⟩ := List.mem_map.1 hv
    exact .integer _

theorem depth_json (p : Param) : p.json.depth ≤ 1 := by
  cases p with
  | null | bool | int | text => exact Nat.zero_le 1
  | float x =>
    rw [json, Json.ofDouble]
    split <;> exact Nat.zero_le 1
  | bytes bs =>
    have flat : Json.depthItems (bs.map fun b => .integer b.toNat) = 0 := by
      induction bs with
      | nil => rfl
      | cons b bs ih =>
        rw [List.map_cons, Json.depthItems_cons, ih]
        rfl
    rw [json, Json.depth_array, flat]

theorem integral_json {p : Param} (plain : ∀ x, p ≠ .float x) : Integral p.json := by
  cases p with
  | null => exact .null
  | bool b => exact .bool b
  | int n =>
    have low : -2 ^ 63 ≤ n.toInt := n.le_toInt
    have high : n.toInt < 2 ^ 63 := n.toInt_lt
    exact .integer _ low (by omega)
  | float x => exact absurd rfl (plain x)
  | text s => exact .string s
  | bytes bs =>
    refine .array fun v hv => ?_
    obtain ⟨b, -, rfl⟩ := List.mem_map.1 hv
    have high := b.toNat_lt
    exact .integer _ (by omega) (by omega)

theorem readable_json {p : Param} (plain : ∀ x, p ≠ .float x) {limit : Nat} (deep : 1 < limit) :
    Readable limit p.json :=
  ⟨integral_json plain, ordered_json p, Nat.lt_of_le_of_lt (depth_json p) deep⟩

/-- The text of a parameter, wherever it stands in a list, is read as what it returns as. -/
theorem value_text {p : Param} (finite : Finite p) {limit : Nat} (deep : 1 < limit) :
    ∃ q, Returns p q ∧ ∃ b bs, p.json.octets = b :: bs ∧ Json.isBlank b = false ∧
      Json.asChar b ≠ ']' ∧ ∀ fuel rest, 2 * p.json.octets.length ≤ fuel → EndsNumber rest →
        Json.value fuel limit (p.json.octets ++ rest) = .ok (q.json, rest) := by
  by_cases double : ∃ x, p = .float x
  · obtain ⟨x, rfl⟩ := double
    have finite : x.isFinite = true := finite
    obtain ⟨b, bs, head, opens, y, comes, reads⟩ := Json.scalar_text finite
    have written : (Param.float x).json.octets = b :: bs := by
      rw [json, Json.ofDouble, if_pos finite, Json.octets, Json.write, if_pos finite, head]
    refine ⟨.float y, .float comes, b, bs, written, opens.visible, opens.notListEnd,
      fun fuel rest enough ends => ?_⟩
    rw [written, List.length_cons] at enough
    obtain ⟨fuel, rfl⟩ : ∃ n, fuel = n + 1 := Nat.exists_eq_succ_of_ne_zero (by omega)
    rw [written, List.cons_append, Json.value_scalar opens, reads rest ends, json, Json.ofDouble,
      if_pos comes.finite]
  · have plain : ∀ x, p ≠ .float x := fun x same => double ⟨x, same⟩
    obtain ⟨b, bs, head, visible, notEnd⟩ := Json.octets_head (integral_json plain)
    refine ⟨p, .same plain, b, bs, head, visible, notEnd, fun fuel rest enough ends => ?_⟩
    exact (Json.reads_written fuel).1 rest (readable_json plain deep) enough ends

/-! ## The items of a list -/

/-- What is read as a parameter. -/
def itemShape : Json.Shape := .oneOf "QueryParam" fun v => (ofJson? v).isSome

theorem readAs_text {q : Param} (finite : Finite q) {fuel limit : Nat} {b : UInt8} {bs rest : Bytes}
    (visible : Json.isBlank b = false)
    (read : Json.value fuel limit (b :: bs) = .ok (q.json, rest)) :
    Json.readAs (fuel + 1) limit itemShape (b :: bs) = .ok (q.json, rest) := by
  have accepted : (ofJson? q.json).isSome = true := by
    rw [ofJson?_json finite, Option.isSome_some]
  rw [itemShape, Json.readAs, Json.skipBlanks_visible visible]
  dsimp only
  rw [read]
  dsimp only
  rw [if_pos accepted]

/-- By induction on the list: each parameter's text is followed by a comma or the end of the list,
which ends a number, and leaves fuel enough for the others. -/
theorem readItems_text {limit : Nat} (deep : 1 < limit) (rest : Bytes) : ∀ {ps : List Param},
    (∀ p ∈ ps, Finite p) → ∃ qs, List.Forall₂ Returns ps qs ∧ ∀ fuel first,
      2 * (Utf8.encode (comma first (ps.map json) ++ writeItems (ps.map json))).length + 2 ≤ fuel →
      Json.readItems fuel limit itemShape first
        (Utf8.encode (comma first (ps.map json) ++ writeItems (ps.map json)) ++ 0x5D :: rest) =
          .ok (qs.map json, rest)
  | [], _ => by
    refine ⟨[], .nil, fun fuel first enough => ?_⟩
    obtain ⟨fuel, rfl⟩ : ∃ n, fuel = n + 1 := Nat.exists_eq_succ_of_ne_zero (by omega)
    have nothing : Utf8.encode (comma first ([] : List Json) ++ writeItems []) ++ 0x5D :: rest =
        0x5D :: rest := by
      cases first <;> rfl
    have ended : Json.nextItem first (0x5D :: rest) = .ok (.done rest) := by
      cases first <;> rfl
    rw [List.map_nil, nothing, Json.readItems, ended]
  | p :: ps, finite => by
    obtain ⟨q, returns, b, bs, head, visible, notEnd, reads⟩ :=
      value_text (finite p List.mem_cons_self) deep
    obtain ⟨qs, others, items⟩ :=
      readItems_text deep rest fun p' hp => finite p' (List.mem_cons_of_mem p hp)
    refine ⟨q :: qs, .cons returns others, fun fuel first enough => ?_⟩
    rw [List.map_cons] at enough ⊢
    rw [Json.encode_items, List.length_append, List.length_append] at enough
    have some : 0 < p.json.octets.length := by
      rw [head]
      exact Nat.succ_pos _
    -- One step for the item and one for its shape; the text of the item pays for both.
    obtain ⟨fuel, rfl⟩ : ∃ n, fuel = n + 2 := ⟨fuel - 2, by omega⟩
    have next := Json.nextItem_comma first p.json (ps.map json) visible notEnd
      (bs ++ (Utf8.encode (comma false (ps.map json) ++ writeItems (ps.map json)) ++ 0x5D :: rest))
    have read := reads fuel _ (by omega) (Json.endsNumber_items (ps.map json) rest)
    rw [head, List.cons_append] at read
    rw [Json.encode_items, head, List.append_assoc, List.append_assoc, List.cons_append,
      Json.readItems, next]
    dsimp only
    rw [readAs_text returns.finite visible read]
    dsimp only
    rw [items _ false (by omega), List.map_cons]

/-! ## Lists -/

theorem ofItems_json {ps : List Param} (finite : ∀ p ∈ ps, Finite p) :
    ofItems (listJson ps) = ps := by
  have items : (listJson ps).items? = some (ps.map json) := rfl
  rw [ofItems, items, Option.getD_some, List.filterMap_map]
  exact (List.filterMap_congr fun p hp => ofJson?_json (finite p hp)).trans List.filterMap_some

theorem finite_of_returns {ps qs : List Param} (returns : List.Forall₂ Returns ps qs) :
    ∀ q ∈ qs, Finite q := by
  induction returns with
  | nil => exact fun q hq => absurd hq List.not_mem_nil
  | cons first _ later =>
    intro q hq
    rcases List.mem_cons.1 hq with rfl | hq
    · exact first.finite
    · exact later q hq

theorem eq_of_returns {ps qs : List Param} (returns : List.Forall₂ Returns ps qs)
    (exact : ∀ x, .float x ∈ ps → Json.Number.Exact x) : qs = ps := by
  induction returns with
  | nil => rfl
  | cons first _ later =>
    rw [first.eq fun x same => exact x (same ▸ List.mem_cons_self),
      later fun x hx => exact x (List.mem_cons_of_mem _ hx)]

/-- **Parameters come back, doubles nearly.** A list of parameters whose doubles are finite reads as
itself from the value that it is written as. From the text of that value a list of the same length
is read: each parameter comes back as it was, but a double as one that may be a few places off. The
list is the same where no double needs rounding to be read. -/
theorem list_returns {ps : List Param} (finite : ∀ p ∈ ps, Finite p) :
    ofItems (listJson ps) = ps ∧
      ∃ qs, listOfOctets (listJson ps).octets = .ok qs ∧ List.Forall₂ Returns ps qs ∧
        ((∀ x, .float x ∈ ps → Json.Number.Exact x) → qs = ps) := by
  refine ⟨ofItems_json finite, ?_⟩
  have deep : 1 < Json.nestingLimit - 1 := by decide
  obtain ⟨qs, returns, items⟩ := readItems_text deep [] finite
  refine ⟨qs, ?_, returns, eq_of_returns returns⟩
  generalize values : ps.map json = vs at items
  have array : (listJson ps).octets =
      0x5B :: (Utf8.encode (comma true vs ++ writeItems vs) ++ [0x5D]) := by
    rw [listJson, values, Json.octets_array]
  have read := items (2 * (listJson ps).octets.length + 2) true (by
    rw [array, List.length_cons, List.length_append]
    omega)
  have whole : Json.readAs (Json.fuelFor (listJson ps).octets) Json.nestingLimit listShape
      (listJson ps).octets = .ok (listJson qs, []) := by
    have mark : ¬ Json.asChar 0x5B ≠ '[' := by decide
    have open_list : ¬ Json.nestingLimit ≤ 1 := by decide
    rw [Json.fuelFor, array, listShape, Json.readAs, Json.skipBlanks_visible (by decide)]
    dsimp only
    rw [if_neg mark, if_neg open_list, ← array]
    rw [itemShape] at read
    rw [read]
    rfl
  simp only [listOfOctets, Json.ofOctetsAs, whole, bind, Except.bind]
  exact congrArg Except.ok (ofItems_json (finite_of_returns returns))

/-- A whole number of 53 bits is moved: the zero behind its point makes it one of 57 bits, which is
rounded before it is divided by ten. -/
theorem whole_number_moved :
    (∀ p ∈ [Param.float ⟨0x433999999999999F⟩], Finite p) ∧
      listOfOctets (listJson [.float ⟨0x433999999999999F⟩]).octets =
        .ok [.float ⟨0x433999999999999E⟩] ∧
      [Param.float ⟨0x433999999999999E⟩] ≠ [.float ⟨0x433999999999999F⟩] :=
  ⟨by decide +kernel, by decide +kernel, by decide⟩

/-- One parameter of each kind, among them one tenth and no octets. -/
theorem each_kind_returns :
    (∀ p ∈ [Param.null, .bool true, .int (-1), .float ⟨0x3FB999999999999A⟩, .text "1", .bytes []],
      Finite p) ∧
    listOfOctets (listJson [.null, .bool true, .int (-1), .float ⟨0x3FB999999999999A⟩, .text "1",
      .bytes []]).octets =
        .ok [.null, .bool true, .int (-1), .float ⟨0x3FB999999999999A⟩, .text "1", .bytes []] := by
  have finite : ∀ p ∈ [Param.null, .bool true, .int (-1), .float ⟨0x3FB999999999999A⟩, .text "1",
      .bytes []], Finite p := by
    decide +kernel
  obtain ⟨-, qs, read, -, same⟩ := list_returns finite
  refine ⟨finite, read.trans (congrArg Except.ok (same fun x hx => ?_))⟩
  obtain rfl : x = ⟨0x3FB999999999999A⟩ := by simpa using hx
  decide +kernel

end NamedStores.Sql.Param
