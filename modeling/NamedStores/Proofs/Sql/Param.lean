/-
Parameters as JSON values. Every parameter is written as a value that reads as the parameter again,
since what is tried before its own kind does not take that value. The other way a value that reads
as a parameter is written as it was, but for one kind of values: an integer beyond those of 64 bits
with a sign is no parameter of its own, and the doubles, which are tried next, take it and round it.
-/
import NamedStores.Proofs.Record
import NamedStores.Sql.Param

namespace NamedStores.Sql.Param

/-! ## Octets -/

theorem octet?_eq_some {v : Json} {b : UInt8} : octet? v = some b ↔ v = .integer b.toNat := by
  simp only [octet?, Option.map_eq_some_iff, Json.unsigned?_eq_some]
  constructor
  · rintro ⟨n, ⟨rfl, small⟩, rfl⟩
    rw [UInt8.toNat_ofNat_of_lt' small]
  · rintro rfl
    exact ⟨b.toNat, ⟨rfl, b.toNat_lt⟩, UInt8.ofNat_toNat⟩

/-- A list reads as octets exactly when it is the list written of them. -/
theorem octets_eq_some {vs : List Json} {bs : Bytes} :
    vs.mapM octet? = some bs ↔ vs = bs.map fun b => .integer b.toNat := by
  induction vs generalizing bs with
  | nil => cases bs <;> simp
  | cons v vs ih =>
    rw [List.mapM_cons]
    cases bs with
    | nil => simp [Option.bind_eq_some_iff]
    | cons b bs =>
      simp only [Option.bind_eq_bind, Option.bind_eq_some_iff, Option.pure_def, Option.some.injEq,
        List.cons.injEq, List.map_cons, octet?_eq_some, ih]
      constructor
      · rintro ⟨_, first, _, later, rfl, rfl⟩
        exact ⟨first, later⟩
      · rintro ⟨first, later⟩
        exact ⟨b, first, bs, later, rfl, rfl⟩

/-! ## Integers -/

/-- How an integer is bound: with its value as far as 64 bits with a sign go, beyond as a double. -/
theorem ofJson?_integer {n : Int} (low : -0x8000000000000000 ≤ n) :
    (n < 0x8000000000000000 → ∃ i : Int64, i.toInt = n ∧ ofJson? (.integer n) = some (.int i)) ∧
      (0x8000000000000000 ≤ n → ofJson? (.integer n) = some (.float (.ofInt n))) := by
  constructor
  · intro high
    have fits : Integer.fits64 n = true := by
      rw [Integer.fits64, Bool.and_eq_true, decide_eq_true_eq, decide_eq_true_eq]
      exact ⟨low, high⟩
    exact ⟨.ofInt n, Int64.toInt_ofInt_of_le low high, by rw [ofJson?, if_pos fits]⟩
  · intro beyond
    have unfit : Integer.fits64 n = false := by
      rw [Integer.fits64, Bool.and_eq_false_iff, decide_eq_false_iff_not, decide_eq_false_iff_not]
      omega
    rw [ofJson?, if_neg (by rw [unfit]; exact Bool.false_ne_true)]

/-! ## From a parameter to a value and back -/

/-- A double among parameters is finite. -/
def Finite : Param → Prop
  | .float x => x.isFinite = true
  | _ => True

instance decidableFinite : (p : Param) → Decidable (Finite p)
  | .float x => inferInstanceAs (Decidable (x.isFinite = true))
  | .null | .bool _ | .int _ | .text _ | .bytes _ => isTrue trivial

/-- No parameter is taken for one of another kind. -/
theorem ofJson?_json {p : Param} (finite : Finite p) : ofJson? p.json = some p := by
  cases p with
  | null => rfl
  | bool b => rfl
  | int n =>
    have low : -2 ^ 63 ≤ n.toInt := n.le_toInt
    have high : n.toInt < 2 ^ 63 := n.toInt_lt
    obtain ⟨i, value, bound⟩ := (ofJson?_integer low).1 high
    rw [json, bound, Int64.toInt_inj.1 value]
  | float x =>
    have finite : x.isFinite = true := finite
    rw [json, Json.ofDouble, if_pos finite, ofJson?]
  | text s => rfl
  | bytes bs => rw [json, ofJson?, octets_eq_some.2 rfl, Option.map_some]

/-! ## From a value to a parameter and back -/

/-- What JSON can hold in the place of a parameter: an integer of 64 bits, with or without a sign,
and doubles that are finite. -/
def Held : Json → Prop
  | .integer n => -0x8000000000000000 ≤ n ∧ n < 0x10000000000000000
  | .float x => x.isFinite = true
  | _ => True

/-- An integer that a signed word of 64 bits does not hold for being too large. -/
def Unsigned (v : Json) : Prop := ∃ n, v = .integer n ∧ 0x8000000000000000 ≤ n

theorem json_of_ofJson? {v : Json} {p : Param} (held : Held v) (read : ofJson? v = some p)
    (small : ¬ Unsigned v) : p.json = v := by
  cases v with
  | null =>
    cases read
    rfl
  | bool b =>
    cases read
    rfl
  | integer n =>
    have high : n < 0x8000000000000000 := Int.not_le.1 fun beyond => small ⟨n, rfl, beyond⟩
    obtain ⟨i, value, bound⟩ := (ofJson?_integer held.1).1 high
    cases bound.symm.trans read
    rw [json, value]
  | float x =>
    have finite : x.isFinite = true := held
    cases read
    rw [json, Json.ofDouble, if_pos finite]
  | string s =>
    cases read
    rfl
  | array vs =>
    rw [ofJson?, Option.map_eq_some_iff] at read
    obtain ⟨bs, octets, rfl⟩ := read
    rw [json, octets_eq_some.1 octets]
  | object es => cases read

/-- A double is never written as an integer. -/
theorem json_float_ne (x : Double) (n : Int) : (Param.float x).json ≠ .integer n := by
  intro same
  rw [json, Json.ofDouble] at same
  split at same <;> cases same

/-- **Integers stay integers below `2 ^ 63`.** A value that reads as a parameter is written again as
it was exactly when it is no integer from `2 ^ 63` on. An integer below is bound as an integer of
the same value; one from there on, though JSON holds it exactly, is bound as a double. -/
theorem integers_kept_below {v : Json} {p : Param} (held : Held v) (read : ofJson? v = some p) :
    (p.json = v ↔ ¬ Unsigned v) ∧
    ∀ n, v = .integer n →
      (n < 0x8000000000000000 → ∃ i : Int64, i.toInt = n ∧ p = .int i) ∧
      (0x8000000000000000 ≤ n → p = .float (.ofInt n)) := by
  have bound : ∀ n, v = .integer n →
      (n < 0x8000000000000000 → ∃ i : Int64, i.toInt = n ∧ p = .int i) ∧
      (0x8000000000000000 ≤ n → p = .float (.ofInt n)) := by
    rintro n rfl
    obtain ⟨below, beyond⟩ := ofJson?_integer held.1
    constructor
    · intro high
      obtain ⟨i, value, bound⟩ := below high
      exact ⟨i, value, Option.some.inj (read.symm.trans bound)⟩
    · intro high
      exact Option.some.inj (read.symm.trans (beyond high))
  refine ⟨⟨?_, json_of_ofJson? held read⟩, bound⟩
  rintro same ⟨n, rfl, beyond⟩
  rw [(bound n rfl).2 beyond] at same
  exact json_float_ne _ n same

/-- The least integer that is rounded to another one. -/
theorem integer_rounded : Held (.integer 0x8000000000000001) ∧
    ofJson? (.integer 0x8000000000000001) = some (.float (.ofInt 0x8000000000000000)) ∧
    (Param.float (.ofInt 0x8000000000000000)).json ≠ .integer 0x8000000000000001 := by
  refine ⟨⟨by decide, by decide⟩, ?_, json_float_ne _ _⟩
  have below : ¬ Integer.fits64 0x8000000000000001 = true := by decide
  have rounded : Double.ofInt 0x8000000000000001 = Double.ofInt 0x8000000000000000 := by
    decide +kernel
  rw [ofJson?, if_neg below, rounded]

/-- The greatest integer of 64 bits with a sign is the last that is kept. -/
theorem greatest_kept : Held (.integer 0x7FFFFFFFFFFFFFFF) ∧
    ofJson? (.integer 0x7FFFFFFFFFFFFFFF) = some (.int 0x7FFFFFFFFFFFFFFF) ∧
    (Param.int 0x7FFFFFFFFFFFFFFF).json = .integer 0x7FFFFFFFFFFFFFFF := by
  have held : Held (.integer 0x7FFFFFFFFFFFFFFF) := ⟨by decide, by decide⟩
  have read : ofJson? (.integer 0x7FFFFFFFFFFFFFFF) = some (.int 0x7FFFFFFFFFFFFFFF) := by
    decide +kernel
  refine ⟨held, read, (integers_kept_below held read).1.2 ?_⟩
  rintro ⟨n, same, beyond⟩
  cases same
  omega

end NamedStores.Sql.Param
