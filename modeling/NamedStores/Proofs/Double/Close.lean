/-
How far apart two numbers are that differ by so many roundings. One rounding changes a number that
is not subnormal by a factor between the reciprocal of `1 + 2 ^ -53` and that factor itself, the
factors of products and quotients multiply, and the midpoints between the doubles grow by more than
the factor from one to the next. So numbers that are so many roundings apart have nearest magnitudes
that are no more places apart.
-/
import NamedStores.Proofs.Double.Rounding

namespace NamedStores.Double

/-- What one rounding multiplies or divides by, at most. -/
def factor : ℚ := 1 + 1 / 2 ^ 53

theorem factor_pow_pos (k : Nat) : 0 < factor ^ k := pow_pos (by norm_num [factor]) k

/-- Two numbers so many roundings apart. -/
structure Close (k : Nat) (a b : ℚ) : Prop where
  le : a ≤ b * factor ^ k
  ge : b ≤ a * factor ^ k

namespace Close

variable {a b c d : ℚ} {j k : Nat}

theorem symm (h : Close k a b) : Close k b a := ⟨h.ge, h.le⟩

theorem trans (h : Close j a b) (h' : Close k b c) : Close (j + k) a c where
  le := by
    calc a ≤ b * factor ^ j := h.le
      _ ≤ c * factor ^ k * factor ^ j := mul_le_mul_of_nonneg_right h'.le (factor_pow_pos j).le
      _ = c * factor ^ (j + k) := by ring
  ge := by
    calc c ≤ b * factor ^ k := h'.ge
      _ ≤ a * factor ^ j * factor ^ k := mul_le_mul_of_nonneg_right h.ge (factor_pow_pos k).le
      _ = a * factor ^ (j + k) := by ring

theorem mul (h : Close j a b) (h' : Close k c d) (ha : 0 ≤ a) (hb : 0 ≤ b) (hc : 0 ≤ c)
    (hd : 0 ≤ d) : Close (j + k) (a * c) (b * d) where
  le := by
    calc a * c ≤ b * factor ^ j * (d * factor ^ k) :=
          mul_le_mul h.le h'.le hc (mul_nonneg hb (factor_pow_pos j).le)
      _ = b * d * factor ^ (j + k) := by ring
  ge := by
    calc b * d ≤ a * factor ^ j * (c * factor ^ k) :=
          mul_le_mul h.ge h'.ge hd (mul_nonneg ha (factor_pow_pos j).le)
      _ = a * c * factor ^ (j + k) := by ring

theorem inv (h : Close k a b) (ha : 0 < a) (hb : 0 < b) : Close k a⁻¹ b⁻¹ where
  le := by
    rw [inv_le_iff_one_le_mul₀ ha, inv_mul_eq_div, div_mul_eq_mul_div, one_le_div hb, mul_comm]
    exact h.ge
  ge := by
    rw [inv_le_iff_one_le_mul₀ hb, inv_mul_eq_div, div_mul_eq_mul_div, one_le_div ha, mul_comm]
    exact h.le

theorem div (h : Close j a b) (h' : Close k c d) (ha : 0 ≤ a) (hb : 0 ≤ b) (hc : 0 < c)
    (hd : 0 < d) : Close (j + k) (a / c) (b / d) := by
  rw [div_eq_mul_inv, div_eq_mul_inv]
  exact h.mul (h'.inv hc hd) ha hb (inv_pos.mpr hc).le (inv_pos.mpr hd).le

end Close

/-! ## One rounding -/

/-- A magnitude that is not subnormal is at least `2 ^ 52` units. -/
theorem le_value {m : Nat} (normal : leastNormal ≤ m) : 2 ^ 52 * unit (steps m) ≤ value m := by
  have here := exists_place m
  rw [here.value_eq]
  have count : leastNormal ≤ m - steps m * leastNormal := by
    rcases here.normal with none | enough
    · rwa [none, Nat.zero_mul, Nat.sub_zero]
    · exact enough
  have count : (2 : ℚ) ^ 52 ≤ (m - steps m * leastNormal : Nat) := by
    exact_mod_cast count
  exact mul_le_mul_of_nonneg_right count (unit_pos _).le

/-- Rounding a number that is not subnormal is one rounding. -/
theorem Nearest.close {v : ℚ} {m : Nat} (near : Nearest v m)
    (normal : Double.value leastNormal ≤ v) : Close 1 v (Double.value m) := by
  have least : leastNormal ≤ m := near.le_of_value_le normal
  constructor
  · have upper := near.upper
    have units := le_value least
    rw [mid] at upper
    rw [pow_one, factor]
    linarith
  · rw [pow_one, factor]
    rcases Nat.lt_or_eq_of_le least with less | rfl
    · obtain ⟨n, rfl⟩ : ∃ n, m = n + 1 := Nat.exists_eq_succ_of_ne_zero (by omega)
      have lower := near.lower n n.lt_succ_self
      have units := le_value (Nat.le_of_lt_succ less)
      rw [mid] at lower
      rw [value_succ]
      have positive := unit_pos (steps n)
      linarith
    · have positive := value_nonneg leastNormal
      linarith

/-! ## Places -/

theorem mid_mul_lt (n : Nat) : mid n * factor < mid (n + 1) := by
  have here := exists_place n
  have units : value n ≤ (2 ^ 53 - 1) * unit (steps n) := by
    have count : (n - steps n * leastNormal : Nat) ≤ 2 ^ 53 - 1 := Nat.le_pred_of_lt here.small
    have count : ((n - steps n * leastNormal : Nat) : ℚ) ≤ 2 ^ 53 - 1 := by
      have cast : ((2 ^ 53 - 1 : Nat) : ℚ) = 2 ^ 53 - 1 := by norm_num
      rw [← cast]
      exact_mod_cast count
    rw [here.value_eq]
    exact mul_le_mul_of_nonneg_right count (unit_pos _).le
  have grown : unit (steps n) ≤ unit (steps (n + 1)) :=
    zpow_le_zpow_right₀ one_le_two (by unfold steps leastNormal; omega)
  have positive := unit_pos (steps n)
  rw [mid, mid, value_succ, factor]
  linarith

theorem mid_mul_pow_lt (n : Nat) : ∀ k, mid n * factor ^ (k + 1) < mid (n + (k + 1))
  | 0 => by
    rw [Nat.zero_add, pow_one]
    exact mid_mul_lt n
  | k + 1 => by
    calc mid n * factor ^ (k + 1 + 1) = mid n * factor ^ (k + 1) * factor := by ring
      _ < mid (n + (k + 1)) * factor :=
          mul_lt_mul_of_pos_right (mid_mul_pow_lt n k) (by norm_num [factor])
      _ < mid (n + (k + 1 + 1)) := mid_mul_lt (n + (k + 1))

/-- Numbers so many roundings apart are rounded to magnitudes that are no more places apart. -/
theorem Nearest.le_add {v w : ℚ} {m n k : Nat} (hm : Nearest v m) (hn : Nearest w n)
    (close : Close k v w) : n ≤ m + k := by
  cases k with
  | zero =>
    obtain ⟨le, ge⟩ := close
    rw [pow_zero, mul_one] at le ge
    obtain rfl : v = w := le_antisymm le ge
    exact (hn.unique hm).le
  | succ k =>
    by_contra above
    have lower : mid (m + (k + 1)) ≤ w := hn.lower _ (by omega)
    have upper : w ≤ mid m * factor ^ (k + 1) :=
      close.ge.trans (mul_le_mul_of_nonneg_right hm.upper (factor_pow_pos _).le)
    exact absurd (lower.trans upper) (not_le.mpr (mid_mul_pow_lt m k))

/-! ## Whole numbers -/

/-- The magnitude of the largest double. -/
def largest : Nat := infiniteMagnitude - 1

/-- The largest double as a whole number. -/
def largestWhole : Nat := (2 ^ 53 - 1) * 2 ^ 971

theorem value_largest : value largest = largestWhole := by
  have here : Place largest 2045 (2 * leastNormal - 1) := ⟨by decide, by decide, .inr (by decide)⟩
  have exponent : unit 2045 = 2 ^ 971 := by
    rw [unit, ← zpow_natCast]
    norm_num
  rw [here.value_eq, exponent, largestWhole, Nat.cast_mul, Nat.cast_pow, Nat.cast_two]
  norm_num [leastNormal]

theorem value_leastNormal : value leastNormal = 2 ^ (-1022 : ℤ) := by
  have here : Place leastNormal 0 leastNormal := ⟨by decide, by decide, .inl rfl⟩
  have power : ((leastNormal : Nat) : ℚ) = 2 ^ (52 : ℤ) := by norm_num [leastNormal]
  rw [here.value_eq, power, unit, ← zpow_add₀ two_ne_zero]
  norm_num

theorem value_leastNormal_le {n : Nat} (hn : 0 < n) : value leastNormal ≤ n := by
  have one : (2 : ℚ) ^ (-1022 : ℤ) ≤ 1 := zpow_le_one_of_nonpos₀ one_le_two (by decide)
  have least : (1 : ℚ) ≤ n := by exact_mod_cast hn
  rw [value_leastNormal]
  exact one.trans least

/-- A whole number that is not beyond the doubles is rounded to one that is finite. -/
theorem ofNat_nearest {n : Nat} (bound : n ≤ largestWhole) : Nearest n (ofNat n).magnitude ∧
    (ofNat n).isNegative = false ∧ (ofNat n).magnitude < infiniteMagnitude := by
  obtain ⟨m, near⟩ := exists_nearest (Nat.cast_nonneg (α := ℚ) n)
  have small : m ≤ largest := by
    refine near.le_of_le_value ?_
    rw [value_largest]
    exact Nat.cast_le.mpr bound
  have finite : m < infiniteMagnitude := Nat.lt_of_le_pred (by decide) small
  rw [ofNat_eq near, Nat.min_eq_left finite.le, magnitude_ofMagnitude finite.le,
    isNegative_ofMagnitude finite.le]
  exact ⟨near, rfl, finite⟩

/-- A whole number is one rounding apart from its double. -/
theorem ofNat_close {n : Nat} (hn : 0 < n) (bound : n ≤ largestWhole) : Close 1 n (ofNat n).size :=
  (ofNat_nearest bound).1.close (value_leastNormal_le hn)

theorem size_ofNat_pos {n : Nat} (hn : 0 < n) (bound : n ≤ largestWhole) : 0 < (ofNat n).size := by
  have least := (ofNat_nearest bound).1.le_of_value_le (value_leastNormal_le hn)
  exact value_pos (Nat.lt_of_lt_of_le (by decide) least)

/-- A whole number of 53 bits, times a power of two, is a value. -/
theorem exists_value {c : Nat} (hc : 0 < c) (small : c < 2 ^ 53) (j : Nat) :
    ∃ m, value m = c * 2 ^ j := by
  have low := Nat.log2_self_le hc.ne'
  have high : c < 2 ^ (Nat.log2 c + 1) := Nat.lt_log2_self
  have length : Nat.log2 c ≤ 52 := by
    rw [Nat.lt_succ_iff.symm, Nat.log2_lt hc.ne']
    exact small
  obtain ⟨l, total⟩ := Nat.exists_eq_add_of_le length
  refine ⟨(1074 - l + j) * leastNormal + c * 2 ^ l, ?_⟩
  have place : Place ((1074 - l + j) * leastNormal + c * 2 ^ l) (1074 - l + j) (c * 2 ^ l) := by
    refine ⟨rfl, ?_, .inr ?_⟩
    · calc c * 2 ^ l < 2 ^ (Nat.log2 c + 1) * 2 ^ l := Nat.mul_lt_mul_of_pos_right high (by positivity)
        _ = 2 * 2 ^ (Nat.log2 c + l) := by ring
        _ = 2 * leastNormal := by rw [← total]; rfl
    · calc leastNormal = 2 ^ (Nat.log2 c + l) := by rw [← total]; rfl
        _ = 2 ^ Nat.log2 c * 2 ^ l := pow_add _ _ _
        _ ≤ c * 2 ^ l := Nat.mul_le_mul_right _ low
  have power : (2 : ℚ) ^ l * unit (1074 - l + j) = 2 ^ j := by
    rw [unit, ← zpow_natCast, ← zpow_natCast, ← zpow_add₀ two_ne_zero]
    congr 1
    omega
  rw [place.value_eq, Nat.cast_mul, Nat.cast_pow, Nat.cast_two, mul_assoc, power]

/-- Such a number is not rounded. -/
theorem size_ofNat {c : Nat} (hc : 0 < c) (small : c < 2 ^ 53) (j : Nat)
    (bound : c * 2 ^ j ≤ largestWhole) : (ofNat (c * 2 ^ j)).size = c * 2 ^ j := by
  obtain ⟨m, whole⟩ := exists_value hc small j
  have near := (ofNat_nearest bound).1
  rw [Nat.cast_mul, Nat.cast_pow, Nat.cast_two, ← whole] at near
  rw [size, near.unique (.value m), whole]

theorem size_of_small {n : Nat} (hn : 0 < n) (small : n < 2 ^ 53) : (ofNat n).size = n := by
  have whole := size_ofNat hn small 0
  rw [Nat.pow_zero, Nat.mul_one, pow_zero, mul_one] at whole
  exact whole (small.le.trans (by decide +kernel))

theorem size_mono {m n : Nat} (le : m ≤ n) (bound : n ≤ largestWhole) :
    (ofNat m).size ≤ (ofNat n).size :=
  value_strictMono.monotone
    ((ofNat_nearest (le.trans bound)).1.le (ofNat_nearest bound).1 (Nat.cast_le.mpr le))

end NamedStores.Double
