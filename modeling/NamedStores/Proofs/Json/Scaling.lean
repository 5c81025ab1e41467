/-
What becomes of a decimal when its significand is turned into a double and scaled by a power of ten.
The significand, the power and their product or quotient are each rounded, so the result is not
always the double nearest to the decimal; but it lies no more than two places from it, and four
where the power is reached in two steps. With a significand of 53 bits and a power of at most
`10 ^ 22` only the last of these roundings changes anything, and the result is the nearest double.
-/
import NamedStores.Json.Number
import NamedStores.Proofs.Double.Close

namespace NamedStores.Json.Number

open Double

/-! ## Powers of ten -/

section

variable {k : Nat} (hk : k ≤ 308)

include hk

theorem pow_le : 10 ^ k ≤ largestWhole := by
  calc 10 ^ k ≤ 10 ^ 308 := Nat.pow_le_pow_right (by decide) hk
    _ ≤ largestWhole := by decide +kernel

theorem powerOfTen_close : Close 1 (10 ^ k) (powerOfTen k).size := by
  have close := ofNat_close (Nat.pow_pos (by decide : 0 < 10)) (pow_le hk)
  rw [Nat.cast_pow] at close
  exact_mod_cast close

theorem one_le_powerOfTen : 1 ≤ (powerOfTen k).size := by
  have one : (ofNat 1).size = (1 : Nat) := size_of_small Nat.one_pos (by decide)
  rw [← Nat.cast_one, ← one]
  exact size_mono (Nat.pow_pos (by decide)) (pow_le hk)

theorem isNegative_powerOfTen : (powerOfTen k).isNegative = false := (ofNat_nearest (pow_le hk)).2.1

theorem magnitude_powerOfTen : (powerOfTen k).magnitude ≠ 0 := by
  intro none
  have one := one_le_powerOfTen hk
  rw [size, none, value_zero] at one
  exact absurd one (by norm_num)

end

/-- The powers up to `10 ^ 22` are not rounded. -/
theorem size_powerOfTen {k : Nat} (hk : k ≤ 22) : (powerOfTen k).size = 10 ^ k := by
  have split : 10 ^ k = 5 ^ k * 2 ^ k := by rw [← Nat.mul_pow]
  have small : 5 ^ k < 2 ^ 53 :=
    Nat.lt_of_le_of_lt (Nat.pow_le_pow_right (by decide) hk) (by decide)
  have exact_size := size_ofNat (Nat.pow_pos (by decide : 0 < 5)) small k
    (split ▸ pow_le (by omega))
  rw [powerOfTen, Nat.pow_eq, split, exact_size]
  push_cast
  rw [← mul_pow]
  norm_num

theorem sig_le {sig : Nat} (short : sig ≤ 10 ^ 17) : sig ≤ largestWhole :=
  short.trans (by decide +kernel)

/-! ## One step -/

/-- Two magnitudes that are so many places apart at most. -/
structure Apart (k m n : Nat) : Prop where
  le : n ≤ m + k
  ge : m ≤ n + k

theorem apart_of_close {v w : ℚ} {m n k : Nat} (hm : Nearest v m) (hn : Nearest w n)
    (close : Close k v w) : Apart k m n :=
  ⟨hm.le_add hn close, hn.le_add hm close.symm⟩

theorem Apart.refl (k m : Nat) : Apart k m m := ⟨Nat.le_add_right m k, Nat.le_add_right m k⟩

theorem size_nonneg (x : Double) : 0 ≤ x.size := value_nonneg _

/-- Greater factors whose product is finite show that the product is finite. -/
theorem mul_finite {x y x' y' : Double} (less : x.size ≤ x'.size) (less' : y.size ≤ y'.size)
    (finite : (x'.mul y').isFinite = true) :
    ∃ n, Nearest (x.size * y.size) n ∧ n < infiniteMagnitude := by
  obtain ⟨n, near⟩ := exists_nearest (mul_nonneg (size_nonneg x) (size_nonneg y))
  obtain ⟨n', near'⟩ := exists_nearest (mul_nonneg (size_nonneg x') (size_nonneg y'))
  have le : n ≤ n' := near.le near' (mul_le_mul less less' (size_nonneg y) (size_nonneg x'))
  rw [isFinite, decide_eq_true_eq, mul_eq near', magnitude_ofMagnitude (Nat.min_le_right _ _)]
    at finite
  exact ⟨n, near, by omega⟩

/-- The greatest significand that may come with a power gives a finite product. Up to `10 ^ 291`
that is the greatest significand of all. -/
theorem greatest_products : ((List.range 18).all fun i =>
    ((ofNat (min (10 ^ 17) (largestWhole / 10 ^ (291 + i)))).mul
      (powerOfTen (291 + i))).isFinite) = true := by
  decide +kernel

theorem mul_powerOfTen {sig k : Nat} (short : sig ≤ 10 ^ 17) (hk : k ≤ 308)
    (reach : sig * 10 ^ k ≤ largestWhole) :
    ∃ n, (ofNat sig).mul (powerOfTen k) = ofMagnitude false n ∧ n < infiniteMagnitude ∧
      Nearest ((ofNat sig).size * (powerOfTen k).size) n := by
  have greatest := List.all_eq_true.mp greatest_products (k - 291) (List.mem_range.mpr (by omega))
  have above : k ≤ 291 + (k - 291) := by omega
  have le : sig ≤ largestWhole / 10 ^ (291 + (k - 291)) := by
    rcases Nat.le_total k 291 with low | high
    · have all_fit : 10 ^ 17 ≤ largestWhole / 10 ^ 291 := by decide +kernel
      rw [Nat.sub_eq_zero_of_le low, Nat.add_zero]
      exact short.trans all_fit
    · rw [Nat.add_sub_cancel' high]
      exact (Nat.le_div_iff_mul_le (Nat.pow_pos (by decide))).mpr reach
  have grows : (powerOfTen k).size ≤ (powerOfTen (291 + (k - 291))).size :=
    size_mono (Nat.pow_le_pow_right (by decide) above) (pow_le (by omega))
  obtain ⟨n, near, finite⟩ := mul_finite
    (size_mono (Nat.le_min.mpr ⟨short, le⟩) (sig_le (Nat.min_le_left _ _))) grows greatest
  refine ⟨n, ?_, finite, near⟩
  rw [mul_eq near, (ofNat_nearest (sig_le short)).2.1, isNegative_powerOfTen hk,
    Nat.min_eq_left finite.le]
  rfl

theorem div_powerOfTen {x : Double} {k : Nat} (plain : x.isNegative = false)
    (finite : x.magnitude < infiniteMagnitude) (hk : k ≤ 308) :
    ∃ n, x.div (powerOfTen k) = ofMagnitude false n ∧ n < infiniteMagnitude ∧
      Nearest (x.size / (powerOfTen k).size) n := by
  obtain ⟨n, near⟩ := exists_nearest (div_nonneg (size_nonneg x) (size_nonneg (powerOfTen k)))
  have less : n ≤ x.magnitude :=
    near.le_of_le_value (div_le_self (size_nonneg x) (one_le_powerOfTen hk))
  refine ⟨n, ?_, by omega, near⟩
  rw [div_eq (magnitude_powerOfTen hk) near, plain, isNegative_powerOfTen hk,
    Nat.min_eq_left (by omega)]
  rfl

/-! ## Small numbers -/

/-- Significands of one or two come back exactly. -/
theorem smallest_scaled : ([1, 2].all fun s => (List.range 16).all fun j =>
    scale 4 (ofNat s) (-(308 + j : Nat)) == some (ofRatio false s (10 ^ (308 + j)))) = true := by
  decide +kernel

/-- A number that is not rounded to zero is not below half the least double. -/
theorem pow_le_of_nonzero {sig k m : Nat} (nonzero : m ≠ 0) (near : Nearest (sig / 10 ^ k) m) :
    10 ^ k ≤ sig * 2 ^ 1075 := by
  have power : (0 : ℚ) < 10 ^ k := pow_pos (by norm_num) k
  have low := near.lower 0 (Nat.pos_of_ne_zero nonzero)
  have half : mid 0 = (2 ^ 1075)⁻¹ := by
    have natural : ((0 : Nat) : ℤ) - 1074 = -((1074 : Nat) : ℤ) := rfl
    have next : (2 : ℚ) ^ 1075 = 2 ^ 1074 * 2 := pow_succ 2 1074
    have first : steps 0 = 0 := rfl
    rw [mid, value_zero, first, zero_add, unit, natural, zpow_neg, zpow_natCast, next, mul_inv,
      div_eq_mul_inv]
  rw [half, le_div_iff₀ power, inv_mul_le_iff₀ (pow_pos two_pos _), mul_comm] at low
  exact_mod_cast low

theorem lt_of_pow_le {n j k : Nat} (less : n < 10 ^ j) (le : 10 ^ k ≤ n) : k < j :=
  (Nat.pow_lt_pow_iff_right (by decide : 1 < 10)).mp (le.trans_lt less)

theorem power_lt {sig k : Nat} (pos : 0 < sig) (reach : sig * 10 ^ k ≤ largestWhole) : k < 309 :=
  lt_of_pow_le (n := largestWhole) (by decide +kernel) ((Nat.le_mul_of_pos_left _ pos).trans reach)

theorem negative_power_lt {sig k m : Nat} (short : sig ≤ 10 ^ 17) (nonzero : m ≠ 0)
    (near : Nearest (sig / 10 ^ k) m) : k < 341 := by
  refine lt_of_pow_le (lt_of_le_of_lt (Nat.mul_le_mul_right _ short) ?_)
    (pow_le_of_nonzero nonzero near)
  decide +kernel

/-! ## Scaling -/

section

variable {sig m : Nat} (pos : 0 < sig) (short : sig ≤ 10 ^ 17)

include pos short

theorem sig_close : Close 1 sig (ofNat sig).size := ofNat_close pos (sig_le short)

theorem scale_up {k : Nat} (hk : k ≤ 308) (near : Nearest (sig * 10 ^ k) m)
    (reach : sig * 10 ^ k ≤ largestWhole) :
    ∃ n, scale 4 (.ofNat sig) k = some (ofMagnitude false n) ∧ n < infiniteMagnitude ∧
      Apart 2 m n ∧ (sig < 2 ^ 53 → k ≤ 22 → n = m) := by
  obtain ⟨n, product, finite, near'⟩ := mul_powerOfTen short hk reach
  refine ⟨n, ?_, finite, ?_, fun small low => ?_⟩
  · have isFinite : (ofMagnitude false n).isFinite = true := by
      rw [isFinite, magnitude_ofMagnitude finite.le, decide_eq_true_eq]
      exact finite
    rw [scale, Int.natAbs_natCast, if_pos hk, if_pos (Int.natCast_nonneg k), Int.toNat_natCast]
    dsimp only
    rw [product, if_pos isFinite]
  · refine apart_of_close near near' ?_
    exact (sig_close pos short).mul (powerOfTen_close hk) (Nat.cast_nonneg sig) (size_nonneg _)
      (by positivity) (size_nonneg _)
  · rw [size_of_small pos small, size_powerOfTen low] at near'
    exact near'.unique near

theorem scale_down {k : Nat} (hk : k ≤ 308) (down : 0 < k) (near : Nearest (sig / 10 ^ k) m) :
    ∃ n, scale 4 (.ofNat sig) (-k) = some (ofMagnitude false n) ∧ n < infiniteMagnitude ∧
      Apart 2 m n ∧ (sig < 2 ^ 53 → k ≤ 22 → n = m) := by
  obtain ⟨-, plain, small⟩ := ofNat_nearest (sig_le short)
  obtain ⟨n, quotient, finite, near'⟩ := div_powerOfTen plain small hk
  refine ⟨n, ?_, finite, ?_, fun small low => ?_⟩
  · rw [scale, Int.natAbs_neg, Int.natAbs_natCast, if_pos hk, if_neg (by omega), quotient]
  · refine apart_of_close near near' ?_
    have positive := lt_of_lt_of_le one_pos (one_le_powerOfTen hk)
    exact (sig_close pos short).div (powerOfTen_close hk) (Nat.cast_nonneg sig) (size_nonneg _)
      (by positivity) positive
  · rw [size_of_small pos small, size_powerOfTen low] at near'
    exact near'.unique near

/-! ### Two steps -/

/-- A power below `10 ^ -308` is reached by way of that one. -/
theorem scale_far {k : Nat} (far : 308 < k) (reached : k ≤ 616) {b z : Double}
    (first : (ofNat sig).div (powerOfTen 308) = b) (second : b.div (powerOfTen (k - 308)) = z) :
    scale 4 (.ofNat sig) (-k) = some z := by
  have nonzero : (ofNat sig).isZero = false := by
    have positive := size_ofNat_pos pos (sig_le short)
    rw [isZero, beq_eq_false_iff_ne]
    intro none
    rw [size, none, value_zero] at positive
    exact lt_irrefl 0 positive
  have rest : (-(k : ℤ) + 308).natAbs = k - 308 := by omega
  rw [scale, Int.natAbs_neg, Int.natAbs_natCast, if_neg (by omega), nonzero, if_neg (by simp),
    if_neg (by omega), first, scale, rest, if_pos (by omega), if_neg (by omega), second]

omit pos in
/-- From three on the first quotient is not subnormal. -/
theorem first_quotient (three : 3 ≤ sig) :
    Double.value leastNormal ≤ (ofNat sig).size / (powerOfTen 308).size := by
  have above : 3 ≤ (ofNat sig).size := by
    have exact_three : (ofNat 3).size = (3 : Nat) := size_of_small (by decide) (by decide)
    rw [← Nat.cast_ofNat, ← exact_three]
    exact size_mono three (sig_le short)
  have divisor := (powerOfTen_close (le_refl 308)).ge
  have positive := lt_of_lt_of_le one_pos (one_le_powerOfTen (le_refl 308))
  generalize (powerOfTen 308).size = p at divisor positive
  have room : (10 : ℚ) ^ 308 * (2 ^ 53 + 1) ≤ 3 * 2 ^ 53 * 2 ^ 1022 := by
    have whole : 10 ^ 308 * (2 ^ 53 + 1) ≤ 3 * 2 ^ 53 * 2 ^ 1022 := by decide +kernel
    exact_mod_cast whole
  have inverse : (2 : ℚ) ^ (-1022 : ℤ) = (2 ^ 1022)⁻¹ := by
    have natural : (-1022 : ℤ) = -((1022 : Nat) : ℤ) := rfl
    rw [natural, zpow_neg, zpow_natCast]
  have power : (0 : ℚ) < 2 ^ 1022 := pow_pos two_pos _
  rw [value_leastNormal, inverse, le_div_iff₀ positive, inv_mul_le_iff₀ power]
  obtain ⟨g, hg⟩ : ∃ g : ℚ, 2 ^ 1022 = g := ⟨_, rfl⟩
  obtain ⟨t, ht⟩ : ∃ t : ℚ, 10 ^ 308 = t := ⟨_, rfl⟩
  rw [ht] at divisor room
  rw [hg] at power room ⊢
  calc p ≤ t * factor ^ 1 := divisor
    _ = t * (2 ^ 53 + 1) / 2 ^ 53 := by
        rw [pow_one, factor]
        ring
    _ ≤ g * 3 := by
        rw [div_le_iff₀ (by norm_num)]
        exact room.trans_eq (by ring)
    _ ≤ g * (ofNat sig).size := mul_le_mul_of_nonneg_left above power.le

theorem scale_far_down {k : Nat} (far : 308 < k) (nonzero : m ≠ 0)
    (near : Nearest (sig / 10 ^ k) m) (finite : m < infiniteMagnitude) :
    ∃ n, scale 4 (.ofNat sig) (-k) = some (ofMagnitude false n) ∧ n < infiniteMagnitude ∧
      Apart 4 m n := by
  rcases Nat.lt_or_ge 2 sig with three | few
  · have reached := negative_power_lt short nonzero near
    have split : (10 : ℚ) ^ k = 10 ^ 308 * 10 ^ (k - 308) := by
      rw [← pow_add, Nat.add_sub_cancel' far.le]
    obtain ⟨-, plain, small⟩ := ofNat_nearest (sig_le short)
    obtain ⟨b, first, small', near'⟩ := div_powerOfTen plain small (le_refl 308)
    have size_first : (ofMagnitude false b).size = Double.value b := by
      rw [size, magnitude_ofMagnitude small'.le]
    obtain ⟨n, second, small'', near''⟩ := div_powerOfTen
      (isNegative_ofMagnitude small'.le false) (by rwa [magnitude_ofMagnitude small'.le])
      (by omega : k - 308 ≤ 308)
    refine ⟨n, scale_far pos short far (by omega) first second, small'', ?_⟩
    rw [split, ← div_div] at near
    rw [size_first] at near''
    refine apart_of_close near near'' ?_
    have positive {k : Nat} (hk : k ≤ 308) := lt_of_lt_of_le one_pos (one_le_powerOfTen hk)
    have once : Close 3 (sig / 10 ^ 308 : ℚ) (Double.value b) :=
      ((sig_close pos short).div (powerOfTen_close (le_refl 308)) (Nat.cast_nonneg sig)
        (size_nonneg _) (by positivity) (positive (le_refl 308))).trans
        (near'.close (first_quotient short three))
    exact once.div (powerOfTen_close (by omega)) (by positivity) (value_nonneg b)
      (by positivity) (positive (by omega))
  · -- The first quotient of one or two is subnormal, where a rounding is no small factor: these are
    -- few enough to be computed.
    have reached : k < 324 := by
      refine lt_of_pow_le (lt_of_le_of_lt (Nat.mul_le_mul_right _ few) ?_)
        (pow_le_of_nonzero nonzero near)
      decide +kernel
    have chosen := List.all_eq_true.mp smallest_scaled sig (by simp; omega)
    have chosen := List.all_eq_true.mp chosen (k - 308) (List.mem_range.mpr (by omega))
    rw [beq_iff_eq, Nat.add_sub_cancel' far.le] at chosen
    refine ⟨m, ?_, finite, .refl 4 m⟩
    have near : Nearest (sig / (10 ^ k : Nat)) m := by
      push_cast
      exact near
    rw [chosen, ofRatio_eq (Nat.pow_pos (by decide)) near, Nat.min_eq_left finite.le]

/-- How many places scaling may put a double off. -/
def scalingPlaces (e : ℤ) : Nat := if e < -308 then 4 else 2

/-- **Scaling a significand by a power of ten.** A decimal within the range of the doubles is never
out of range for the reader; what it gives is a few places at most from the nearest double, and that
double itself where the significand and the power are doubles. -/
theorem scale_near {e : ℤ} (nonzero : m ≠ 0) (near : Nearest (sig * 10 ^ e) m)
    (reach : (sig * 10 ^ e : ℚ) ≤ Double.value largest) :
    ∃ n, scale 4 (.ofNat sig) e = some (ofMagnitude false n) ∧ n < infiniteMagnitude ∧
      Apart (scalingPlaces e) m n ∧ (sig < 2 ^ 53 → e.natAbs ≤ 22 → n = m) := by
  have finite : m < infiniteMagnitude :=
    Nat.lt_of_le_pred (by decide) (near.le_of_le_value reach)
  rcases Int.lt_or_le e 0 with down | up
  · obtain ⟨k, rfl⟩ : ∃ k : Nat, e = -k := ⟨e.natAbs, by omega⟩
    rw [zpow_neg, zpow_natCast, ← div_eq_mul_inv] at near
    rcases Nat.lt_or_ge 308 k with far | close
    · obtain ⟨n, scaled, finite', apart⟩ := scale_far_down pos short far nonzero near finite
      rw [scalingPlaces, if_pos (by omega)]
      exact ⟨n, scaled, finite', apart, fun _ low => absurd low (by omega)⟩
    · rw [scalingPlaces, if_neg (by omega), Int.natAbs_neg, Int.natAbs_natCast]
      exact scale_down pos short close (by omega) near
  · obtain ⟨k, rfl⟩ := Int.eq_ofNat_of_zero_le up
    rw [zpow_natCast] at near reach
    have whole : ((sig * 10 ^ k : Nat) : ℚ) = sig * 10 ^ k := by push_cast; rfl
    rw [value_largest, ← whole] at reach
    have reach : sig * 10 ^ k ≤ largestWhole := Nat.cast_le.mp reach
    have low := power_lt pos reach
    rw [scalingPlaces, if_neg (by omega), Int.natAbs_natCast]
    exact scale_up pos short (by omega) near reach

end

end NamedStores.Json.Number
