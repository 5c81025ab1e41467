/-
Whatever text a value is read from, its objects are maps: their keys ascend. Hence a document
has each section once, and a section each record once.
-/
import NamedStores.Configuration
import NamedStores.Proofs.SortedMap

namespace NamedStores

theorem toOption_eq_some {ε α : Type} {r : Except ε α} {a : α} :
    r.toOption = some a ↔ r = .ok a := by
  cases r with
  | error e => exact iff_of_false (fun h => by cases h) fun h => by cases h
  | ok b => rw [Except.toOption, Option.some.injEq, Except.ok.injEq]

namespace Json

/-- Every object in the value has its keys in ascending order. -/
inductive Ordered : Json → Prop
  | null : Ordered .null
  | bool (b : Bool) : Ordered (.bool b)
  | integer (n : Int) : Ordered (.integer n)
  | float (x : Double) : Ordered (.float x)
  | string (s : String) : Ordered (.string s)
  | array {vs : List Json} : (∀ v ∈ vs, Ordered v) → Ordered (.array vs)
  | object {es : Record} : SortedMap.Ordered es → (∀ e ∈ es, Ordered e.2) → Ordered (.object es)

theorem Ordered.record {v : Json} {es : Record} (hv : Ordered v) (h : v.record? = some es) :
    SortedMap.Ordered es ∧ ∀ e ∈ es, Ordered e.2 := by
  cases hv <;> simp only [record?, Option.some.injEq, reduceCtorEq] at h
  subst h
  exact ⟨‹_›, ‹_›⟩

/-! ## Numbers -/

/-- A step that gives a number, if it gives anything. -/
def GivesNumber (r : Step Json) : Prop :=
  ∀ v rest, r = .ok (v, rest) → (∃ n, v = .integer n) ∨ ∃ x, v = .float x

theorem GivesNumber.error {f : Fault} : GivesNumber (.error f) := by
  intro v rest h
  cases h

theorem GivesNumber.ok {v : Json} {rest : Bytes}
    (hv : (∃ n, v = .integer n) ∨ ∃ x, v = .float x) : GivesNumber (.ok (v, rest)) := by
  intro v' rest' h
  cases h
  exact hv

namespace Number

theorem float_number {negative : Bool} {sig : Nat} {e : Int} {rest : Bytes} :
    GivesNumber (float negative sig e rest) := by
  unfold float
  split
  · exact .ok (.inr ⟨_, rfl⟩)
  · exact .error

theorem integer_number {negative : Bool} {sig : Nat} :
    (∃ n, integer negative sig = .integer n) ∨ ∃ x, integer negative sig = .float x := by
  unfold integer
  split
  · split
    · exact .inr ⟨_, rfl⟩
    · exact .inl ⟨_, rfl⟩
  · exact .inl ⟨_, rfl⟩

theorem exponent_number {negative : Bool} {sig : Nat} {start : Int} {bs : Bytes} :
    GivesNumber (exponent negative sig start bs) := by
  unfold exponent
  dsimp only
  repeat' split
  all_goals first
    | exact .error
    | exact float_number
    | exact .ok (.inr ⟨_, rfl⟩)

theorem part_number {negative : Bool} {sig dropped : Nat} {bs : Bytes} :
    GivesNumber (part negative sig dropped bs) := by
  unfold part
  split
  · exact .error
  · exact .error
  dsimp only
  split
  · split
    · exact exponent_number
    · exact float_number
  · exact float_number

theorem afterWhole_number {negative : Bool} {sig dropped : Nat} {bs : Bytes} :
    GivesNumber (afterWhole negative sig dropped bs) := by
  have plain : GivesNumber
      (if dropped = 0 then .ok (integer negative sig, bs) else float negative sig dropped bs) := by
    split
    · exact .ok integer_number
    · exact float_number
  unfold afterWhole
  dsimp only
  split
  · split
    · exact part_number
    split
    · exact exponent_number
    · exact plain
  · exact plain

theorem read_number {negative : Bool} {bs : Bytes} : GivesNumber (read negative bs) := by
  unfold read
  split
  · exact .error
  split
  · split
    · split
      · exact .error
      · exact afterWhole_number
    · exact afterWhole_number
  split
  · exact afterWhole_number
  · exact .error

end Number

theorem Ordered.number {r : Step Json} (hr : GivesNumber r) {v : Json} {rest : Bytes}
    (h : r = .ok (v, rest)) : Ordered v := by
  rcases hr v rest h with ⟨n, rfl⟩ | ⟨x, rfl⟩
  · exact .integer n
  · exact .float x

/-! ## Values -/

theorem map_eq_ok {α β ε : Type} {r : Except ε α} {f : α → β} {b : β} (h : r.map f = .ok b) :
    ∃ a, r = .ok a ∧ f a = b := by
  cases r with
  | error e => cases h
  | ok a => exact ⟨a, rfl, Except.ok.inj h⟩

theorem scalar_ordered {b : UInt8} {bs rest : Bytes} {v : Json}
    (h : scalar b bs = .ok (v, rest)) : Ordered v := by
  unfold scalar at h
  split at h
  · obtain ⟨_, -, he⟩ := map_eq_ok h
    cases he
    exact .null
  · obtain ⟨_, -, he⟩ := map_eq_ok h
    cases he
    exact .bool true
  · obtain ⟨_, -, he⟩ := map_eq_ok h
    cases he
    exact .bool false
  · exact .number Number.read_number h
  · obtain ⟨_, -, he⟩ := map_eq_ok h
    cases he
    exact .string _
  · split at h
    · exact .number Number.read_number h
    · cases h

/-! ### Values, items and entries -/

section Steps

variable {fuel : Nat}
  (ihValue : ∀ {depth bs v rest}, value fuel depth bs = .ok (v, rest) → Ordered v)
  (ihItems : ∀ {depth first bs vs rest}, items fuel depth first bs = .ok (vs, rest) →
    ∀ v ∈ vs, Ordered v)
  (ihEntries : ∀ {depth first bs es rest}, entries fuel depth first bs = .ok (es, rest) →
    ∀ e ∈ es, Ordered e.2)

include ihItems ihEntries in
theorem value_ordered_succ {depth : Nat} {bs rest : Bytes} {v : Json}
    (h : value (fuel + 1) depth bs = .ok (v, rest)) : Ordered v := by
  rw [value] at h
  split at h
  · cases h
  split at h
  · split at h
    · cases h
    split at h
    · cases h
    next hi =>
      cases h
      exact .array (ihItems hi)
  split at h
  · split at h
    · cases h
    split at h
    · cases h
    next hi =>
      cases h
      exact .object (SortedMap.ofList_ordered _)
        fun e he => ihEntries hi e (SortedMap.mem_of_mem_ofList he)
  · exact scalar_ordered h

include ihValue ihItems in
theorem items_ordered_succ {depth : Nat} {first : Bool} {bs rest : Bytes} {vs : List Json}
    (h : items (fuel + 1) depth first bs = .ok (vs, rest)) : ∀ v ∈ vs, Ordered v := by
  rw [items] at h
  split at h
  · cases h
  · cases h
    simp
  split at h
  · cases h
  next hv =>
  split at h
  · cases h
  next hi =>
  cases h
  intro v hm
  rcases List.mem_cons.1 hm with rfl | hm
  · exact ihValue hv
  · exact ihItems hi v hm

include ihValue ihEntries in
theorem entries_ordered_succ {depth : Nat} {first : Bool} {bs rest : Bytes}
    {es : List (String × Json)} (h : entries (fuel + 1) depth first bs = .ok (es, rest)) :
    ∀ e ∈ es, Ordered e.2 := by
  rw [entries] at h
  split at h
  · cases h
  · cases h
    simp
  split at h
  · cases h
  split at h
  · cases h
  split at h
  · cases h
  next hv =>
  split at h
  · cases h
  next he =>
  cases h
  intro e hm
  rcases List.mem_cons.1 hm with rfl | hm
  · exact ihValue hv
  · exact ihEntries he e hm

end Steps

/-- By induction on the fuel, for values, items and entries together. -/
theorem value_ordered_all (fuel : Nat) :
    (∀ {depth bs v rest}, value fuel depth bs = .ok (v, rest) → Ordered v) ∧
      (∀ {depth first bs vs rest}, items fuel depth first bs = .ok (vs, rest) →
        ∀ v ∈ vs, Ordered v) ∧
      (∀ {depth first bs es rest}, entries fuel depth first bs = .ok (es, rest) →
        ∀ e ∈ es, Ordered e.2) := by
  induction fuel with
  | zero =>
    refine ⟨?_, ?_, ?_⟩ <;> intros <;> simp_all [value, items, entries, lookFault]
  | succ fuel ih =>
    obtain ⟨ihValue, ihItems, ihEntries⟩ := ih
    exact ⟨value_ordered_succ ihItems ihEntries, items_ordered_succ ihValue ihItems,
      entries_ordered_succ ihValue ihEntries⟩

/-! ### Whole texts -/

theorem read_eq_ok {bs : Bytes} {v : Json} : read bs = .ok v ↔
    ∃ rest, value (fuelFor bs) nestingLimit bs = .ok (v, rest) ∧ finish rest = .ok () := by
  rw [read]
  cases value (fuelFor bs) nestingLimit bs with
  | error f =>
    refine iff_of_false (fun h => by cases h) fun h => ?_
    obtain ⟨_, found, -⟩ := h
    cases found
  | ok found =>
    obtain ⟨w, rest⟩ := found
    simp only [bind, Except.bind]
    constructor
    · intro h
      cases ended : finish rest with
      | error f => rw [ended] at h; cases h
      | ok _ =>
        rw [ended] at h
        cases h
        exact ⟨rest, rfl, ended⟩
    · intro h
      obtain ⟨rest', same, ended⟩ := h
      cases same
      rw [ended]
      rfl

theorem ofOctets_eq_ok {bs : Bytes} {v : Json} : ofOctets bs = .ok v ↔ read bs = .ok v := by
  rw [ofOctets]
  cases read bs with
  | error f => exact iff_of_false (fun h => by cases h) fun h => by cases h
  | ok w =>
    have kept : (Except.ok w : Except Fault Json).mapError (·.message bs) = .ok w := rfl
    rw [kept, Except.ok.injEq, Except.ok.injEq]

theorem ofOctets_ordered {bs : Bytes} {v : Json} (h : ofOctets bs = .ok v) : Ordered v := by
  obtain ⟨rest, given, -⟩ := read_eq_ok.1 (ofOctets_eq_ok.1 h)
  exact (value_ordered_all _).1 given

end Json

namespace Configuration

/-- Each section has its records in ascending order of their names. -/
def Ordered (c : Configuration) : Prop :=
  ∀ part records, c.section? part = some records → SortedMap.Ordered records

theorem ofOctets_ordered {bs : Bytes} {c : Configuration} (h : ofOctets bs = .ok c) :
    c.Ordered := by
  intro part records hs
  unfold ofOctets at h
  split at h
  · next v hv =>
    cases v <;> simp only [ofJson, reduceCtorEq, Except.ok.injEq] at h
    subst h
    obtain ⟨-, he⟩ := (Json.ofOctets_ordered hv).record rfl
    simp only [section?, SortedMap.get?, Option.bind_eq_some_iff, Option.map_eq_some_iff] at hs
    obtain ⟨v, ⟨e, hf, rfl⟩, hr⟩ := hs
    exact ((he e (List.mem_of_find?_eq_some hf)).record hr).1
  · cases h

end Configuration

end NamedStores
