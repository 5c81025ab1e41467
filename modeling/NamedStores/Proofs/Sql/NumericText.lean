/-
The text of a binary decimal number says exactly what its digits are worth. Digit `i` is worth
`10000 ^ (weight - i)`; the text is the sum's integer part without needless zeros and its first
decimal places, cut. Both parts follow from one fact: cutting the sum behind a group of four
places leaves the number that the digits up to there spell in base 10000.
-/
import Mathlib.Algebra.BigOperators.Fin
import Mathlib.Algebra.Order.Floor.Semifield
import Mathlib.Data.Rat.Floor
import Mathlib.Tactic.FieldSimp
import Mathlib.Tactic.Linarith
import Mathlib.Tactic.Positivity
import Mathlib.Tactic.Ring
import NamedStores.Proofs.Text.Utf8
import NamedStores.Sql.Postgres

namespace NamedStores.Sql.Numeric

/-! ## What the digits are worth -/

/-- The exact value of the digits, the first of which has the given weight. -/
def magnitude (weight : Int) (digits : List Nat) : ℚ :=
  ∑ i : Fin digits.length, (digits[i] : ℚ) * 10000 ^ (weight - (i : ℕ))

/-- The digits read behind a point in base 10000. -/
def fraction : List Nat → ℚ
  | [] => 0
  | d :: ds => (d + fraction ds) / 10000

/-- The number that the first digits spell; beyond those given there are zeros. -/
def lead (digits : List Nat) : Nat → Nat
  | 0 => 0
  | k + 1 => lead digits k * 10000 + digitAt digits k

theorem magnitude_eq_fraction (weight : Int) (digits : List Nat) :
    magnitude weight digits = fraction digits * 10000 ^ (weight + 1) := by
  induction digits generalizing weight with
  | nil => simp [magnitude, fraction]
  | cons d ds ih =>
    have tail : ∑ i : Fin ds.length, (ds[i] : ℚ) * 10000 ^ (weight - ((i : ℕ) + 1 : ℕ)) =
        magnitude (weight - 1) ds := by
      refine Finset.sum_congr rfl fun i _ => ?_
      have shift : weight - ((i : ℕ) + 1 : ℕ) = weight - 1 - (i : ℕ) := by push_cast; ring
      rw [shift]
    have split : magnitude weight (d :: ds) =
        d * 10000 ^ weight + magnitude (weight - 1) ds := by
      rw [← tail, magnitude]
      simp only [List.length_cons, Fin.sum_univ_succ]
      simp
    rw [split, ih, fraction, sub_add_cancel, zpow_add₀ (by norm_num), zpow_one]
    ring

theorem fraction_nonneg (digits : List Nat) : 0 ≤ fraction digits := by
  induction digits with
  | nil => exact le_refl 0
  | cons d ds ih => rw [fraction]; positivity

theorem fraction_lt_one {digits : List Nat} (small : ∀ d ∈ digits, d < 10000) :
    fraction digits < 1 := by
  induction digits with
  | nil => exact zero_lt_one
  | cons d ds ih =>
    have rest : fraction ds < 1 := ih fun x hx => small x (List.mem_cons_of_mem d hx)
    have first : (d : ℚ) ≤ 9999 := by
      exact_mod_cast Nat.le_of_lt_succ (small d List.mem_cons_self)
    rw [fraction, div_lt_one (by norm_num)]
    linarith

/-! ## Digits by position -/

theorem digitAt_natCast (digits : List Nat) (k : Nat) :
    digitAt digits k = (digits[k]?).getD 0 := by
  rw [digitAt, if_neg (by omega), Int.toNat_natCast]

theorem digitAt_lt {digits : List Nat} (small : ∀ d ∈ digits, d < 10000) (position : Int) :
    digitAt digits position < 10000 := by
  rw [digitAt]
  split
  · decide
  · cases h : digits[position.toNat]? with
    | none => decide
    | some d => exact small d (List.mem_of_getElem? h)

/-- One more digit, wherever the position: before the first digit there are zeros too. -/
theorem lead_succ (digits : List Nat) (position : Int) :
    lead digits (position + 1).toNat =
      lead digits position.toNat * 10000 + digitAt digits position := by
  rcases lt_or_ge position 0 with before | within
  · have next : (position + 1).toNat = 0 := by omega
    have here : position.toNat = 0 := by omega
    rw [next, here, digitAt, if_pos before, lead]
  · obtain ⟨k, rfl⟩ := Int.eq_ofNat_of_zero_le within
    rfl

/-- The first digits taken out of the fraction leave the fraction of the others. -/
theorem fraction_split (digits : List Nat) (k : Nat) :
    fraction digits * 10000 ^ k = lead digits k + fraction (digits.drop k) := by
  induction k with
  | zero => simp [lead]
  | succ k ih =>
    have next : fraction (digits.drop k) * 10000 =
        digitAt digits k + fraction (digits.drop (k + 1)) := by
      rw [digitAt_natCast]
      rcases Nat.lt_or_ge k digits.length with inside | outside
      · rw [List.drop_eq_getElem_cons inside, fraction, List.getElem?_eq_getElem inside,
          Option.getD_some]
        field_simp
      · rw [List.drop_eq_nil_of_le outside, List.drop_eq_nil_of_le (by omega),
          List.getElem?_eq_none outside]
        simp [fraction]
    rw [pow_succ, ← mul_assoc, ih, add_mul, next, lead]
    push_cast
    ring

/-! ## Cutting the value -/

/-- The value cut behind so many groups of four places. -/
theorem floor_groups {digits : List Nat} (small : ∀ d ∈ digits, d < 10000) (weight : Int)
    (m : Nat) :
    ⌊magnitude weight digits * 10000 ^ m⌋₊ = lead digits (weight + 1 + m).toNat := by
  have whole : magnitude weight digits * 10000 ^ m =
      fraction digits * 10000 ^ (weight + 1 + m) := by
    rw [magnitude_eq_fraction, mul_assoc, ← zpow_natCast, ← zpow_add₀ (by norm_num)]
  rw [whole]
  rcases lt_or_ge (weight + 1 + m) 0 with before | within
  · have none_left : (weight + 1 + m).toNat = 0 := by omega
    have power : (10000 : ℚ) ^ (weight + 1 + m) ≤ 1 :=
      zpow_le_one_of_nonpos₀ (by norm_num) before.le
    rw [none_left, lead, Nat.floor_eq_zero]
    calc fraction digits * 10000 ^ (weight + 1 + m)
        ≤ fraction digits * 1 := mul_le_mul_of_nonneg_left power (fraction_nonneg digits)
      _ < 1 := by rw [mul_one]; exact fraction_lt_one small
  · obtain ⟨k, hk⟩ := Int.eq_ofNat_of_zero_le within
    have rest : ∀ d ∈ digits.drop k, d < 10000 := fun d hd => small d (List.mem_of_mem_drop hd)
    rw [hk, Int.toNat_natCast, zpow_natCast, fraction_split, add_comm,
      Nat.floor_add_natCast (fraction_nonneg _), Nat.floor_eq_zero.mpr (fraction_lt_one rest),
      Nat.zero_add]

/-- The decimal place of a number: the first behind the point is place 1. -/
def place (v : ℚ) (j : Nat) : Nat := ⌊v * 10 ^ j⌋₊ % 10

/-- A decimal place is one of the four of a digit. -/
theorem place_magnitude {digits : List Nat} (small : ∀ d ∈ digits, d < 10000) (weight : Int)
    (q r : Nat) (hr : r < 4) :
    place (magnitude weight digits) (4 * q + r + 1) =
      digitAt digits (weight + 1 + q) / 10 ^ (3 - r) % 10 := by
  have powers : (10 : ℚ) ^ (4 * q + r + 1) * 10 ^ (3 - r) = 10000 ^ (q + 1) := by
    have four : (10000 : ℚ) = 10 ^ 4 := by norm_num
    rw [four, ← pow_mul, ← pow_add]
    congr 1
    omega
  have cut : magnitude weight digits * 10 ^ (4 * q + r + 1) =
      magnitude weight digits * 10000 ^ (q + 1) / (10 ^ (3 - r) : ℕ) := by
    rw [← powers]
    push_cast
    field_simp
  have next : weight + 1 + (q + 1 : ℕ) = weight + 1 + q + 1 := by push_cast; ring
  rw [place, cut, Nat.floor_div_natCast, floor_groups small, next, lead_succ]
  have hd := digitAt_lt small (weight + 1 + q)
  rcases hr : r with _ | _ | _ | r <;> norm_num <;> omega

/-! ## Decimal digits of a digit -/

/-- A number in at least so many decimal digits. -/
def padded (k d : Nat) : List Char :=
  List.replicate (k - (Nat.toDigits 10 d).length) '0' ++ Nat.toDigits 10 d

theorem padded_succ {k : Nat} (hk : 0 < k) (d : Nat) :
    padded (k + 1) d = padded k (d / 10) ++ [Nat.digitChar (d % 10)] := by
  rw [padded, padded]
  rcases Nat.lt_or_ge d 10 with one | more
  · obtain ⟨m, rfl⟩ : ∃ m, k = m + 1 := ⟨k - 1, by omega⟩
    have rest : d / 10 = 0 := by omega
    rw [rest, Nat.toDigits_of_lt_base one, Nat.toDigits_zero, Nat.mod_eq_of_lt one]
    simp only [List.length_singleton, Nat.add_sub_cancel]
    rw [List.replicate_succ']
  · rw [Nat.toDigits_of_base_le (by decide) more, List.length_append, List.length_singleton,
      Nat.add_sub_add_right, List.append_assoc]

theorem padded_one {d : Nat} (hd : d < 10) : padded 1 d = [Nat.digitChar d] := by
  rw [padded, Nat.toDigits_of_lt_base hd]
  rfl

/-- The four decimal digits of a digit of base 10000. -/
theorem group_eq {d : Nat} (hd : d < 10000) :
    group d = (List.range 4).map fun r => Nat.digitChar (d / 10 ^ (3 - r) % 10) := by
  have first : d / 10 / 10 / 10 < 10 := by omega
  have written : group d = padded 4 d := rfl
  rw [written, padded_succ (by decide), padded_succ (by decide), padded_succ (by decide),
    padded_one first]
  have e0 : d / 10 / 10 / 10 = d / 1000 % 10 := by omega
  have e1 : d / 10 / 10 % 10 = d / 100 % 10 := by omega
  have e3 : d % 10 = d / 1 % 10 := by omega
  rw [e0, e1, e3]
  rfl

/-- Behind a number that is not zero, a digit of base 10000 takes its four places. -/
theorem toDigits_append_group {n d : Nat} (hn : 0 < n) (hd : d < 10000) :
    Nat.toDigits 10 (n * 10000 + d) = Nat.toDigits 10 n ++ group d := by
  have shorter {m : Nat} (h : 10 ≤ m) :
      Nat.toDigits 10 m = Nat.toDigits 10 (m / 10) ++ [Nat.digitChar (m % 10)] :=
    Nat.toDigits_of_base_le (by decide) h
  rw [shorter (by omega), shorter (by omega), shorter (by omega), shorter (by omega), group_eq hd]
  have rest : (n * 10000 + d) / 10 / 10 / 10 / 10 = n := by omega
  have e0 : (n * 10000 + d) / 10 / 10 / 10 % 10 = d / 1000 % 10 := by omega
  have e1 : (n * 10000 + d) / 10 / 10 % 10 = d / 100 % 10 := by omega
  have e2 : (n * 10000 + d) / 10 % 10 = d / 10 % 10 := by omega
  have e3 : (n * 10000 + d) % 10 = d / 1 % 10 := by omega
  rw [rest, e0, e1, e2, e3]
  simp only [List.append_assoc]
  rfl

/-! ## The text -/

/-- The decimal text of a number: its sign, its integer part, and so many places, cut. -/
def decimalText (negative : Bool) (v : ℚ) (scale : Nat) : List Char :=
  (if negative then ['-'] else []) ++ Nat.toDigits 10 ⌊v⌋₊ ++
    if scale = 0 then [] else
      '.' :: (List.range scale).map fun j => Nat.digitChar (place v (j + 1))

/-- The digits up to the point, written one after the other. -/
theorem toDigits_lead {digits : List Nat} (small : ∀ d ∈ digits, d < 10000)
    (first : 0 < digitAt digits 0) (k : Nat) :
    0 < lead digits (k + 1) ∧
      Nat.toDigits 10 (lead digits (k + 1)) = Nat.toDigits 10 (digitAt digits 0) ++
        (List.range k).flatMap fun (i : Nat) => group (digitAt digits (i + 1)) := by
  induction k with
  | zero =>
    have one : lead digits (0 + 1) = digitAt digits 0 := by
      rw [lead, lead, Nat.zero_mul, Nat.zero_add, Nat.cast_zero]
    rw [one]
    exact ⟨first, by simp⟩
  | succ k ih =>
    have hd := digitAt_lt small (k + 1 : Nat)
    refine ⟨by rw [lead]; omega, ?_⟩
    rw [lead, toDigits_append_group ih.1 hd, ih.2, List.range_succ, List.flatMap_append,
      List.flatMap_singleton, List.append_assoc, Nat.cast_succ]

theorem integerPart_eq {weight : Int} {digits : List Nat} (small : ∀ d ∈ digits, d < 10000)
    (first : ∀ d ∈ digits.head?, d ≠ 0) (none_zero : digits = [] → weight = 0) :
    integerPart digits weight = Nat.toDigits 10 ⌊magnitude weight digits⌋₊ := by
  have whole : ⌊magnitude weight digits⌋₊ = lead digits (weight + 1).toNat := by
    have cut := floor_groups small weight 0
    rwa [pow_zero, mul_one, Nat.cast_zero, add_zero] at cut
  rw [integerPart, whole]
  split
  · rename_i negative
    have before : (weight + 1).toNat = 0 := by omega
    rw [before, lead, Nat.toDigits_zero]
  · rename_i within
    cases digits with
    | nil =>
      rw [none_zero rfl]
      rfl
    | cons d ds =>
      have positive : 0 < digitAt (d :: ds) 0 := Nat.pos_of_ne_zero (first d rfl)
      have upto : (weight + 1).toNat = weight.toNat + 1 := by omega
      rw [upto, (toDigits_lead small positive weight.toNat).2]

theorem flatMap_range_four {α : Type} (f : Nat → α) (n : Nat) :
    ((List.range n).flatMap fun i => (List.range 4).map fun r => f (4 * i + r)) =
      (List.range (4 * n)).map f := by
  induction n with
  | zero => rfl
  | succ n ih =>
    rw [List.range_succ (n := n), List.flatMap_append, ih, List.flatMap_singleton, Nat.mul_succ,
      List.range_add, List.map_append, List.map_map]
    rfl

theorem fractionPart_eq {digits : List Nat} (small : ∀ d ∈ digits, d < 10000) (weight : Int)
    (scale : Nat) :
    fractionPart digits weight scale =
      (List.range scale).map fun j =>
        Nat.digitChar (place (magnitude weight digits) (j + 1)) := by
  have groups (i : Nat) : group (digitAt digits (weight + 1 + i)) =
      (List.range 4).map fun r =>
        Nat.digitChar (place (magnitude weight digits) (4 * i + r + 1)) := by
    rw [group_eq (digitAt_lt small _)]
    refine List.map_congr_left fun r hr => ?_
    rw [place_magnitude small weight i r (List.mem_range.mp hr)]
  have enough : min scale (4 * ((scale + 3) / 4)) = scale := by omega
  simp only [fractionPart, groups]
  rw [flatMap_range_four fun j => Nat.digitChar (place (magnitude weight digits) (j + 1)),
    ← List.map_take, List.take_range, enough]

theorem finiteChars_eq {weight : Int} {digits : List Nat} (small : ∀ d ∈ digits, d < 10000)
    (first : ∀ d ∈ digits.head?, d ≠ 0) (none_zero : digits = [] → weight = 0)
    (negative : Bool) (scale : Nat) :
    finiteChars negative digits weight scale =
      decimalText negative (magnitude weight digits) scale := by
  rw [finiteChars, decimalText, integerPart_eq small first none_zero, fractionPart_eq small]

/-! ## Octets -/

theorem words_big {n : Nat} (hn : n < 0x10000) (bs : Bytes) :
    words (Word.big 2 n ++ bs) = n :: words bs := by
  have written : Word.big 2 n = [.ofNat (n / 256 % 256), .ofNat (n % 256)] := rfl
  rw [written, List.cons_append, List.singleton_append, words,
    Utf8.toNat_octet (by omega), Utf8.toNat_octet (by omega)]
  have value : n / 256 % 256 * 256 + n % 256 = n := by omega
  rw [value]

theorem words_flatMap_big {ns : List Nat} (hns : ∀ n ∈ ns, n < 0x10000) :
    words (ns.flatMap (Word.big 2)) = ns := by
  induction ns with
  | nil => rfl
  | cons n ns ih =>
    rw [List.flatMap_cons, words_big (hns n List.mem_cons_self),
      ih fun m hm => hns m (List.mem_cons_of_mem n hm)]

theorem complement_two (w : Int) : Word.complement 2 w = (w % 0x10000).toNat := rfl

theorem signed_complement {w : Int} (low : -0x8000 ≤ w) (high : w < 0x8000) :
    signed (Word.complement 2 w) = w := by
  have residue : Int.ofNat (w % 0x10000).toNat = w % 0x10000 := Int.toNat_of_nonneg (by omega)
  rw [signed, complement_two, residue]
  split <;> omega

/-- The octets of a finite number: its count of digits, its weight, its sign, its scale, and
its digits, a word each. -/
def octets (negative : Bool) (weight : Int) (scale : Nat) (digits : List Nat) : Bytes :=
  (digits.length :: Word.complement 2 weight :: (if negative then 0x4000 else 0) :: scale ::
    digits).flatMap (Word.big 2)

/-- The numbers that have such octets: each part fits its word, each digit is below 10000, and
the first one is not zero; where there is none, the weight is 0. -/
structure Sendable (weight : Int) (scale : Nat) (digits : List Nat) : Prop where
  count_fits : digits.length < 0x10000
  weight_fits : -0x8000 ≤ weight ∧ weight < 0x8000
  scale_fits : scale < 0x10000
  digits_small : ∀ d ∈ digits, d < 10000
  first_nonzero : ∀ d ∈ digits.head?, d ≠ 0
  zero_weight : digits = [] → weight = 0

theorem words_octets {weight : Int} {scale : Nat} {digits : List Nat}
    (h : Sendable weight scale digits) (negative : Bool) :
    words (octets negative weight scale digits) =
      digits.length :: Word.complement 2 weight :: (if negative then 0x4000 else 0) :: scale ::
        digits := by
  refine words_flatMap_big fun n hn => ?_
  simp only [List.mem_cons] at hn
  rcases hn with rfl | rfl | rfl | rfl | hd
  · exact h.count_fits
  · rw [complement_two]; omega
  · split <;> decide
  · exact h.scale_fits
  · have := h.digits_small n hd
    omega

theorem text?_octets {weight : Int} {scale : Nat} {digits : List Nat}
    (h : Sendable weight scale digits) (negative : Bool) :
    text? (octets negative weight scale digits) =
      some (String.ofList (decimalText negative (magnitude weight digits) scale)) := by
  have finite : ∀ word ∈ [0xC000, 0xD000, 0xF000],
      (if negative then 0x4000 else 0) ≠ word := by cases negative <;> decide
  have sign : decide ((if negative then 0x4000 else 0) = 0x4000) = negative := by
    cases negative <;> rfl
  simp only [text?, words_octets h]
  rw [if_neg (finite _ (by decide)), if_neg (finite _ (by decide)), if_neg (finite _ (by decide)),
    if_neg (by omega), List.take_length, signed_complement h.weight_fits.1 h.weight_fits.2, sign,
    finiteChars_eq h.digits_small h.first_nonzero h.zero_weight]

/-! ## Both formats -/

/-- **A decimal number reads the same in both formats**, and exactly: a minus sign where it is
negative, the integer part of its digits' sum, and behind a point as many decimal places of the
sum as its scale says. -/
theorem numeric_cell_exact {weight : Int} {scale : Nat} {digits : List Nat}
    (h : Sendable weight scale digits) (negative : Bool) :
    let text := String.ofList (decimalText negative (magnitude weight digits) scale)
    text? (octets negative weight scale digits) = some text ∧
      Postgres.cell "NUMERIC" .binary (octets negative weight scale digits) = .string text ∧
      Postgres.cell "NUMERIC" .text (Utf8.ofString text) = .string text := by
  intro text
  have binary : text? (octets negative weight scale digits) = some text := text?_octets h negative
  refine ⟨binary, ?_, ?_⟩
  · change Json.ofText? (text? (octets negative weight scale digits)) = .string text
    rw [binary]
    rfl
  · change Json.ofText? (Utf8.toString? (Utf8.ofString text)) = .string text
    rw [Utf8.toString?_ofString]
    rfl

/-- The octets of -0.001: the weight says that the one digit stands behind the point. -/
theorem minus_one_thousandth_exact :
    Sendable (-1) 3 [10] ∧ magnitude (-1) [10] = 1 / 1000 ∧
      octets true (-1) 3 [10] = [0, 1, 0xFF, 0xFF, 0x40, 0, 0, 3, 0, 10] ∧
      text? (octets true (-1) 3 [10]) =
        some (String.ofList (decimalText true (magnitude (-1) [10]) 3)) ∧
      text? (octets true (-1) 3 [10]) = some "-0.001" := by
  have sendable : Sendable (-1) 3 [10] :=
    ⟨by decide, by decide, by decide, by decide, by decide, by decide⟩
  refine ⟨sendable, ?_, by decide, (numeric_cell_exact sendable true).1, by decide +kernel⟩
  rw [magnitude_eq_fraction]
  norm_num [fraction]

end NamedStores.Sql.Numeric
