/-
The text of a decimal number tells its octets, where these are in normal form: no needless digit
in front or behind, and nothing beyond the places shown. From the text come the sign, the
integer part, the scale and all decimal places, hence the value; from the value the weight, since
the first digit is not zero, and then the digits, since the last one is not.
-/
import Mathlib.Algebra.Order.Archimedean.Basic
import NamedStores.Proofs.Sql.NumericOctets
import NamedStores.Proofs.Sql.NumericText

namespace NamedStores.Sql.Numeric

/-! ## Digits told from their value -/

theorem tail_last {d : Nat} {ds : List Nat} (last : ∀ x ∈ (d :: ds).getLast?, x ≠ 0) :
    ∀ x ∈ ds.getLast?, x ≠ 0 := by
  cases ds with
  | nil => exact fun x none => by cases none
  | cons e ds => rwa [List.getLast?_cons_cons] at last

theorem fraction_eq_zero {ds : List Nat} (last : ∀ x ∈ ds.getLast?, x ≠ 0) :
    fraction ds = 0 ↔ ds = [] := by
  refine ⟨fun zero => ?_, fun none => by rw [none, fraction]⟩
  induction ds with
  | nil => rfl
  | cons d ds ih =>
    have nonneg := fraction_nonneg ds
    have positive : (0 : ℚ) ≤ d := Nat.cast_nonneg d
    rw [fraction, div_eq_zero_iff, or_iff_left (by norm_num)] at zero
    have rest : ds = [] := ih (tail_last last) (by linarith)
    subst rest
    have first : (d : ℚ) = 0 := by linarith
    exact absurd (Nat.cast_eq_zero.1 first) (last d rfl)

/-- Digits without a needless zero behind are told by what they are worth behind a point. -/
theorem fraction_injective {ds es : List Nat} (small : ∀ d ∈ ds, d < 10000)
    (small' : ∀ e ∈ es, e < 10000) (last : ∀ x ∈ ds.getLast?, x ≠ 0)
    (last' : ∀ x ∈ es.getLast?, x ≠ 0) (same : fraction ds = fraction es) : ds = es := by
  induction ds generalizing es with
  | nil => exact ((fraction_eq_zero last').1 same.symm).symm
  | cons d ds ih =>
    cases es with
    | nil => exact (fraction_eq_zero last).1 same
    | cons e es =>
      have small_tail : ∀ x ∈ ds, x < 10000 := fun x hx => small x (List.mem_cons_of_mem d hx)
      have small_tail' : ∀ x ∈ es, x < 10000 := fun x hx => small' x (List.mem_cons_of_mem e hx)
      have sums : (d : ℚ) + fraction ds = e + fraction es := by
        rw [fraction, fraction] at same
        linarith
      -- What stands behind the first digit is below one, so the digit is the sum's whole part.
      have whole {n : Nat} {xs : List Nat} (h : ∀ x ∈ xs, x < 10000) :
          ⌊(n : ℚ) + fraction xs⌋₊ = n := by
        rw [add_comm, Nat.floor_add_natCast (fraction_nonneg xs),
          Nat.floor_eq_zero.2 (fraction_lt_one h), Nat.zero_add]
      have first : d = e := by rw [← whole (n := d) small_tail, sums, whole small_tail']
      subst first
      rw [ih small_tail small_tail' (tail_last last) (tail_last last') (by linarith)]

/-- With a first digit that is not zero, the weight is the value's place among the powers. -/
theorem magnitude_bounds (weight : Int) {d : Nat} {ds : List Nat}
    (small : ∀ x ∈ d :: ds, x < 10000) (first : d ≠ 0) :
    (10000 : ℚ) ^ weight ≤ magnitude weight (d :: ds) ∧
      magnitude weight (d :: ds) < 10000 ^ (weight + 1) := by
  have power : (0 : ℚ) < 10000 ^ weight := zpow_pos (by norm_num) weight
  have value : magnitude weight (d :: ds) = (d + fraction ds) * 10000 ^ weight := by
    rw [magnitude_eq_fraction, fraction, zpow_add₀ (by norm_num), zpow_one]
    ring
  have next : (10000 : ℚ) ^ (weight + 1) = 10000 * 10000 ^ weight := by
    rw [zpow_add₀ (by norm_num), zpow_one, mul_comm]
  have one : (1 : ℚ) ≤ d := Nat.one_le_cast.2 (Nat.pos_of_ne_zero first)
  have nonneg := fraction_nonneg ds
  have bound := fraction_lt_one small
  rw [fraction, div_lt_one (by norm_num)] at bound
  rw [value, next]
  exact ⟨le_mul_of_one_le_left power.le (by linarith), mul_lt_mul_of_pos_right bound power⟩

/-- Weight and digits are told by the value. -/
theorem magnitude_injective {weight weight' : Int} {ds es : List Nat}
    (small : ∀ d ∈ ds, d < 10000) (small' : ∀ e ∈ es, e < 10000)
    (first : ∀ x ∈ ds.head?, x ≠ 0) (first' : ∀ x ∈ es.head?, x ≠ 0)
    (last : ∀ x ∈ ds.getLast?, x ≠ 0) (last' : ∀ x ∈ es.getLast?, x ≠ 0)
    (zero : ds = [] → weight = 0) (zero' : es = [] → weight' = 0)
    (same : magnitude weight ds = magnitude weight' es) : weight = weight' ∧ ds = es := by
  have none {w : Int} : magnitude w [] = 0 := by rw [magnitude_eq_fraction, fraction, zero_mul]
  have some {w : Int} {x : Nat} {xs : List Nat} (h : ∀ y ∈ x :: xs, y < 10000)
      (hx : x ≠ 0) : magnitude w (x :: xs) ≠ 0 :=
    (lt_of_lt_of_le (zpow_pos (by norm_num) w) (magnitude_bounds w h hx).1).ne'
  cases ds with
  | nil =>
    cases es with
    | nil => exact ⟨(zero rfl).trans (zero' rfl).symm, rfl⟩
    | cons e es => exact absurd (same.symm.trans none) (some small' (first' e rfl))
  | cons d ds =>
    cases es with
    | nil => exact absurd (same.trans none) (some small (first d rfl))
    | cons e es =>
      obtain ⟨low, high⟩ := magnitude_bounds weight small (first d rfl)
      obtain ⟨low', high'⟩ := magnitude_bounds weight' small' (first' e rfl)
      have base : (1 : ℚ) < 10000 := by norm_num
      have le : weight < weight' + 1 :=
        (zpow_lt_zpow_iff_right₀ base).1 (lt_of_le_of_lt low (same ▸ high'))
      have ge : weight' < weight + 1 :=
        (zpow_lt_zpow_iff_right₀ base).1 (lt_of_le_of_lt low' (same ▸ high))
      obtain rfl : weight = weight' := by omega
      have power : (10000 : ℚ) ^ (weight + 1) ≠ 0 := zpow_ne_zero _ (by norm_num)
      rw [magnitude_eq_fraction, magnitude_eq_fraction] at same
      exact ⟨rfl, fraction_injective small small' last last' (mul_right_cancel₀ power same)⟩

/-! ## The value told from its decimal places -/

theorem floor_succ (v : ℚ) (j : Nat) :
    ⌊v * 10 ^ (j + 1)⌋₊ = ⌊v * 10 ^ j⌋₊ * 10 + place v (j + 1) := by
  have cut : ⌊v * 10 ^ (j + 1)⌋₊ / 10 = ⌊v * 10 ^ j⌋₊ := by
    rw [← Nat.floor_div_natCast]
    congr 1
    push_cast
    ring
  rw [place, ← cut]
  exact (Nat.div_add_mod' _ 10).symm

theorem lt_of_floors {v v' : ℚ} (same : ∀ j, ⌊v * 10 ^ j⌋₊ = ⌊v' * 10 ^ j⌋₊)
    (nonneg : 0 ≤ v) : ¬ v < v' := by
  intro less
  obtain ⟨j, apart⟩ := pow_unbounded_of_one_lt (1 / (v' - v)) (by norm_num : (1 : ℚ) < 10)
  have gap : v * 10 ^ j + 1 ≤ v' * 10 ^ j := by
    rw [div_lt_iff₀ (by linarith)] at apart
    linarith
  have above : ⌊v * 10 ^ j⌋₊ + 1 ≤ ⌊v' * 10 ^ j⌋₊ := by
    rw [← Nat.floor_add_one (by positivity)]
    exact Nat.floor_le_floor gap
  rw [same] at above
  omega

/-- A number is told by its integer part and its decimal places. -/
theorem eq_of_places {v v' : ℚ} (nonneg : 0 ≤ v) (nonneg' : 0 ≤ v') (whole : ⌊v⌋₊ = ⌊v'⌋₊)
    (places : ∀ j, place v (j + 1) = place v' (j + 1)) : v = v' := by
  have same (j : Nat) : ⌊v * 10 ^ j⌋₊ = ⌊v' * 10 ^ j⌋₊ := by
    induction j with
    | zero => rwa [pow_zero, mul_one, mul_one]
    | succ j ih => rw [floor_succ, floor_succ, ih, places]
  exact le_antisymm (not_lt.1 (lt_of_floors (fun j => (same j).symm) nonneg'))
    (not_lt.1 (lt_of_floors same nonneg))

/-- Behind the last place that is not cut off, there are zeros. -/
theorem place_of_whole {v : ℚ} {s n : Nat} (whole : v * 10 ^ s = n) {j : Nat} (behind : s < j) :
    place v j = 0 := by
  obtain ⟨k, rfl⟩ := Nat.exists_eq_add_of_lt behind
  have value : v * 10 ^ (s + k + 1) = (n * 10 ^ k * 10 : ℕ) := by
    push_cast
    rw [← whole]
    ring
  rw [place, value, Nat.floor_natCast, Nat.mul_mod_left]

/-! ## Sign, parts and scale told from the text -/

/-- Where digits end is told by what cannot be one. -/
theorem digits_end {cs ds ts us : List Char} (digits : ∀ c ∈ cs, Integer.isDigit c = true)
    (digits' : ∀ d ∈ ds, Integer.isDigit d = true)
    (stop : ∀ t ∈ ts.head?, Integer.isDigit t = false)
    (stop' : ∀ u ∈ us.head?, Integer.isDigit u = false) (same : cs ++ ts = ds ++ us) :
    cs = ds ∧ ts = us := by
  have front {xs ys : List Char} (hx : ∀ x ∈ xs, Integer.isDigit x = true)
      (hy : ∀ y ∈ ys.head?, Integer.isDigit y = false) :
      (xs ++ ys).takeWhile Integer.isDigit = xs := by
    rw [List.takeWhile_append_of_pos hx]
    cases ys with
    | nil => rw [List.takeWhile_nil, List.append_nil]
    | cons y ys => rw [List.takeWhile_cons_of_neg (by simp [hy y rfl]), List.append_nil]
  have first : cs = ds := by rw [← front digits stop, same, front digits' stop']
  subst first
  exact ⟨rfl, List.append_cancel_left same⟩

theorem place_lt (v : ℚ) (j : Nat) : place v j < 10 := Nat.mod_lt _ (by decide)

theorem digitChar_injective : ∀ a < 10, ∀ b < 10, Nat.digitChar a = Nat.digitChar b → a = b := by
  decide

/-- The point and the places behind it, if there are any. -/
def pointed (v : ℚ) (scale : Nat) : List Char :=
  if scale = 0 then [] else '.' :: (List.range scale).map fun j => Nat.digitChar (place v (j + 1))

theorem decimalText_eq (negative : Bool) (v : ℚ) (scale : Nat) :
    decimalText negative v scale =
      (if negative then ['-'] else []) ++ (Nat.toDigits 10 ⌊v⌋₊ ++ pointed v scale) :=
  List.append_assoc _ _ _

theorem pointed_stop (v : ℚ) (scale : Nat) :
    ∀ t ∈ (pointed v scale).head?, Integer.isDigit t = false := by
  intro t ht
  rw [pointed] at ht
  split at ht
  · cases ht
  · cases ht
    rfl

theorem length_pointed (v : ℚ) (scale : Nat) :
    (pointed v scale).length = if scale = 0 then 0 else scale + 1 := by
  rw [pointed]
  split
  · rfl
  · rw [List.length_cons, List.length_map, List.length_range]

/-- The scale and the places are told by what stands from the point on. -/
theorem of_pointed_eq {v v' : ℚ} {scale scale' : Nat} (same : pointed v scale = pointed v' scale') :
    scale = scale' ∧ ∀ j < scale, place v (j + 1) = place v' (j + 1) := by
  have lengths := congrArg List.length same
  rw [length_pointed, length_pointed] at lengths
  obtain rfl : scale = scale' := by split at lengths <;> split at lengths <;> omega
  refine ⟨rfl, fun j hj => ?_⟩
  have some : scale ≠ 0 := by omega
  rw [pointed, pointed, if_neg some, if_neg some, List.cons.injEq] at same
  exact digitChar_injective _ (place_lt v _) _ (place_lt v' _)
    (List.map_inj_left.1 same.2 j (List.mem_range.2 hj))

/-- A number without a sign does not begin with one. -/
theorem toDigits_append_ne_minus (n : Nat) (ts us : List Char) :
    Nat.toDigits 10 n ++ ts ≠ '-' :: us := by
  intro wrong
  obtain ⟨c, cs, written⟩ := List.exists_cons_of_ne_nil (Nat.toDigits_ne_nil (n := n) (b := 10))
  rw [written, List.cons_append, List.cons.injEq] at wrong
  have digit := toDigits_digits n c (written ▸ List.mem_cons_self)
  rw [wrong.1] at digit
  cases digit

/-- Sign, integer part, scale and places are told by the text of a number. -/
theorem of_decimalText_eq {negative negative' : Bool} {v v' : ℚ} {scale scale' : Nat}
    (same : decimalText negative v scale = decimalText negative' v' scale') :
    negative = negative' ∧ ⌊v⌋₊ = ⌊v'⌋₊ ∧ scale = scale' ∧
      ∀ j < scale, place v (j + 1) = place v' (j + 1) := by
  rw [decimalText_eq, decimalText_eq] at same
  have sign : negative = negative' := by
    cases negative <;> cases negative'
    · rfl
    · exact absurd same (toDigits_append_ne_minus _ _ _)
    · exact absurd same.symm (toDigits_append_ne_minus _ _ _)
    · rfl
  subst sign
  obtain ⟨whole, behind⟩ := digits_end (toDigits_digits _) (toDigits_digits _) (pointed_stop v scale)
    (pointed_stop v' scale') (List.append_cancel_left same)
  have floors : ⌊v⌋₊ = ⌊v'⌋₊ := by
    rw [← Integer.digitsValue_toDigits ⌊v⌋₊, whole, Integer.digitsValue_toDigits]
  exact ⟨rfl, floors, of_pointed_eq behind⟩

/-! ## Octets in normal form -/

/-- Octets in normal form, with what they say: no digit word is missing or left over, none is
above 9999, neither the first nor the last is zero, nothing is left over behind them, zero has
neither weight nor sign, and no decimal place behind the scale is other than zero. -/
structure NormalForm (bs : Bytes) (negative : Bool) (weight scale : Nat) (digits : List Nat) :
    Prop where
  header : words bs =
    digits.length :: weight :: (if negative then 0x4000 else 0) :: scale :: digits
  whole : bs.length = 8 + 2 * digits.length
  digits_small : ∀ d ∈ digits, d < 10000
  first_nonzero : ∀ d ∈ digits.head?, d ≠ 0
  last_nonzero : ∀ d ∈ digits.getLast?, d ≠ 0
  zero : digits = [] → weight = 0 ∧ negative = false
  shown : ∀ j, scale < j → place (magnitude (signed weight) digits) j = 0

def InNormalForm (bs : Bytes) : Prop :=
  ∃ negative weight scale digits, NormalForm bs negative weight scale digits

theorem signed_injective {m n : Nat} (hm : m < 0x10000) (hn : n < 0x10000)
    (same : signed m = signed n) : m = n := by
  have value (k : Nat) : Int.ofNat k = k := rfl
  rw [signed, signed, value, value] at same
  split at same <;> split at same <;> omega

/-- Octets without one left over are told by their words. -/
theorem words_injective {bs bs' : Bytes} {n : Nat} (even : bs.length = 2 * n)
    (even' : bs'.length = 2 * n) (same : words bs = words bs') : bs = bs' := by
  induction n generalizing bs bs' with
  | zero => rw [List.length_eq_zero_iff.1 even, List.length_eq_zero_iff.1 even']
  | succ n ih =>
    match bs, bs' with
    | a :: b :: bs, a' :: b' :: bs' =>
      simp only [List.length_cons] at even even'
      obtain ⟨word, later⟩ := List.cons.inj same
      have hb := b.toNat_lt
      have hb' := b'.toNat_lt
      obtain rfl : a = a' := UInt8.toNat_inj.1 (by omega)
      obtain rfl : b = b' := UInt8.toNat_inj.1 (by omega)
      rw [ih (by omega) (by omega) later]
    | [], _ => simp only [List.length_nil] at even; omega
    | [_], _ => simp only [List.length_singleton] at even; omega
    | _ :: _ :: _, [] => simp only [List.length_nil] at even'; omega
    | _ :: _ :: _, [_] => simp only [List.length_singleton] at even'; omega

theorem magnitude_nonneg (weight : Int) (digits : List Nat) : 0 ≤ magnitude weight digits := by
  rw [magnitude_eq_fraction]
  exact mul_nonneg (fraction_nonneg digits) (zpow_nonneg (by norm_num) _)

section NormalForm

variable {bs : Bytes} {negative : Bool} {weight scale : Nat} {digits : List Nat}
  (h : NormalForm bs negative weight scale digits)

include h

theorem NormalForm.weight_small : weight < 0x10000 := lt_of_mem_words (by rw [h.header]; simp)

theorem NormalForm.zero_weight (none : digits = []) : signed weight = 0 := by
  rw [(h.zero none).1]
  rfl

theorem NormalForm.text : text? bs =
    some (String.ofList (decimalText negative (magnitude (signed weight) digits) scale)) := by
  have finite : (if negative then 0x4000 else 0) ∉ notNumbers := by cases negative <;> decide
  have sign : decide ((if negative then 0x4000 else 0) = 0x4000) = negative := by
    cases negative <;> rfl
  rw [text?_of_number h.header finite, if_neg (Nat.lt_irrefl _), List.take_length, sign,
    finiteChars_eq h.digits_small h.first_nonzero h.zero_weight]

/-- Two normal forms with one text say the same. -/
theorem NormalForm.text_injective {bs' : Bytes} {negative' : Bool} {weight' scale' : Nat}
    {digits' : List Nat} (h' : NormalForm bs' negative' weight' scale' digits')
    (same : text? bs = text? bs') : bs = bs' := by
  rw [h.text, h'.text, Option.some.injEq, String.ofList_inj] at same
  obtain ⟨rfl, floors, rfl, places⟩ := of_decimalText_eq same
  have value : magnitude (signed weight) digits = magnitude (signed weight') digits' := by
    refine eq_of_places (magnitude_nonneg _ _) (magnitude_nonneg _ _) floors fun j => ?_
    rcases Nat.lt_or_ge j scale with within | behind
    · exact places j within
    · rw [h.shown _ (by omega), h'.shown _ (by omega)]
  obtain ⟨weights, rfl⟩ := magnitude_injective h.digits_small h'.digits_small h.first_nonzero
    h'.first_nonzero h.last_nonzero h'.last_nonzero h.zero_weight h'.zero_weight value
  obtain rfl := signed_injective h.weight_small h'.weight_small weights
  have even : 8 + 2 * digits.length = 2 * (4 + digits.length) := by omega
  exact words_injective (h.whole.trans even) (h'.whole.trans even) (h.header.trans h'.header.symm)

end NormalForm

/-- **The text of a number in normal form tells its octets**: value, sign and scale are all in it,
so that different octets have different texts. -/
theorem text_tells_octets {bs bs' : Bytes} (h : InNormalForm bs) (h' : InNormalForm bs') :
    (text? bs).isSome ∧ (text? bs = text? bs' → bs = bs') := by
  obtain ⟨negative, weight, scale, digits, form⟩ := h
  obtain ⟨negative', weight', scale', digits', form'⟩ := h'
  exact ⟨by rw [form.text]; rfl, form.text_injective form'⟩

/-- A tenth with one place and with two: the same value and different texts. -/
theorem tenth_tells_scale :
    let short : Bytes := [0, 1, 0xFF, 0xFF, 0, 0, 0, 1, 3, 0xE8]
    let long : Bytes := [0, 1, 0xFF, 0xFF, 0, 0, 0, 2, 3, 0xE8]
    InNormalForm short ∧ InNormalForm long ∧ text? short = some "0.1" ∧
      text? long = some "0.10" ∧ short ≠ long ∧ text? short ≠ text? long := by
  intro short long
  have value : magnitude (signed 0xFFFF) [1000] = 1 / 10 := by
    have weight : signed 0xFFFF = -1 := rfl
    rw [weight, magnitude_eq_fraction]
    norm_num [fraction]
  have shown {scale : Nat} (some : 0 < scale) : ∀ j, scale < j →
      place (magnitude (signed 0xFFFF) [1000]) j = 0 := fun j behind =>
    place_of_whole (s := 1) (n := 1) (by rw [value]; norm_num) (by omega)
  have short_normal : InNormalForm short :=
    ⟨false, 0xFFFF, 1, [1000], rfl, rfl, by decide, by decide, by decide, by decide, shown (by decide)⟩
  have long_normal : InNormalForm long :=
    ⟨false, 0xFFFF, 2, [1000], rfl, rfl, by decide, by decide, by decide, by decide, shown (by decide)⟩
  have apart : short ≠ long := by decide
  exact ⟨short_normal, long_normal, by decide +kernel, by decide +kernel, apart,
    fun same => apart ((text_tells_octets short_normal long_normal).2 same)⟩

end NamedStores.Sql.Numeric
