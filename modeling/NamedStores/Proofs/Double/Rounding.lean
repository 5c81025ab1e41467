/-
Rounding gives the nearest magnitude. A quotient is counted in units that leave it below `2 ^ 53`
and, unless the unit is the least there is, not below `2 ^ 52`; the whole number nearest to that
count is its significand. What comes of it depends on the quotient alone and not on how it is
written, so products, quotients and whole numbers as doubles are known from their exact values.
-/
import Mathlib.Data.Nat.Log
import NamedStores.Proofs.Double.Value

namespace NamedStores

/-! ## Fractions -/

section

variable {base num den : Nat}

theorem shift_pos (num : Nat) (e : Int) (hb : 0 < base) (hd : 0 < den) : 0 < (shift base num den e).2 := by
  unfold shift
  split
  · exact hd
  · exact Nat.mul_pos hd (Nat.pow_pos hb)

theorem shift_eq (num den : Nat) (e : Int) (hb : 0 < base) :
    ((shift base num den e).1 : ℚ) / (shift base num den e).2 = num / den * (base : ℚ) ^ e := by
  have nonzero : (base : ℚ) ≠ 0 := by exact_mod_cast hb.ne'
  unfold shift
  split
  · next up =>
    obtain ⟨k, rfl⟩ := Int.eq_ofNat_of_zero_le up
    rw [Int.toNat_natCast, Nat.pow_eq, Nat.cast_mul, Nat.cast_pow, zpow_natCast, mul_div_right_comm]
  · next down =>
    obtain ⟨k, rfl⟩ : ∃ k : Nat, e = -k := ⟨(-e).toNat, by omega⟩
    rw [neg_neg, Int.toNat_natCast, Nat.pow_eq, Nat.cast_mul, Nat.cast_pow, zpow_neg, zpow_natCast,
      ← div_div, div_eq_mul_inv]

/-- A shifted fraction is compared with a whole number as the fraction is with its multiple. -/
theorem shift_lt (num k : Nat) (e : Int) (hb : 0 < base) (hd : 0 < den) :
    (shift base num den (-e)).1 < k * (shift base num den (-e)).2 ↔
      (num / den : ℚ) < k * (base : ℚ) ^ e := by
  have positive : (0 : ℚ) < (shift base num den (-e)).2 := by exact_mod_cast shift_pos _ _ hb hd
  have power : (0 : ℚ) < (base : ℚ) ^ e := zpow_pos (by exact_mod_cast hb) e
  rw [← Nat.cast_lt (α := ℚ), Nat.cast_mul, ← div_lt_iff₀ positive, shift_eq _ _ _ hb, zpow_neg,
    ← div_eq_mul_inv, div_lt_iff₀ power]

/-- A quotient lies within a factor of the base of what the lengths of its terms say. -/
theorem quotient_bounds {p q : Nat} (hb : 0 < base) (low : base ^ p ≤ num)
    (high : num < base ^ (p + 1)) (low' : base ^ q ≤ den) (high' : den < base ^ (q + 1)) :
    (base : ℚ) ^ ((p : ℤ) - q - 1) ≤ num / den ∧ (num / den : ℚ) < base ^ ((p : ℤ) - q + 1) := by
  have nonzero : (base : ℚ) ≠ 0 := by exact_mod_cast hb.ne'
  have power (k : Nat) : (0 : ℚ) < (base : ℚ) ^ k := pow_pos (by exact_mod_cast hb) k
  have positive : (0 : ℚ) < den := (power q).trans_le (by exact_mod_cast low')
  constructor
  · calc (base : ℚ) ^ ((p : ℤ) - q - 1) = (base : ℚ) ^ p / (base : ℚ) ^ (q + 1) := by
          rw [← zpow_natCast, ← zpow_natCast, ← zpow_sub₀ nonzero]
          congr 1
          push_cast
          ring
      _ ≤ num / den :=
          div_le_div₀ (Nat.cast_nonneg num) (by exact_mod_cast low) positive
            (by exact_mod_cast high'.le)
  · calc (num / den : ℚ) < (base : ℚ) ^ (p + 1) / (base : ℚ) ^ q :=
          div_lt_div₀ (by exact_mod_cast high) (by exact_mod_cast low') (power _).le (power _)
      _ = (base : ℚ) ^ ((p : ℤ) - q + 1) := by
          rw [← zpow_natCast, ← zpow_natCast, ← zpow_sub₀ nonzero]
          congr 1
          push_cast
          ring

end

namespace Double

/-- A whole number nearest to a number, the even one of two. -/
structure Rounded (t : ℚ) (q : Nat) : Prop where
  upper : t ≤ q + 1 / 2
  lower : q - 1 / 2 ≤ t
  even : t = q + 1 / 2 ∨ t = q - 1 / 2 → q % 2 = 0

/-- Twice the rest decides, and where it is the divisor the even number is taken. -/
theorem roundDiv_spec (num : Nat) {den : Nat} (hd : 0 < den) :
    2 * num ≤ (2 * roundDiv num den + 1) * den ∧ 2 * roundDiv num den * den ≤ 2 * num + den ∧
      (2 * num = (2 * roundDiv num den + 1) * den ∨ 2 * roundDiv num den * den = 2 * num + den →
        roundDiv num den % 2 = 0) := by
  have whole := Nat.div_add_mod num den
  have rest := Nat.mod_lt num hd
  unfold roundDiv
  dsimp only
  generalize num / den = f at *
  generalize num % den = r at *
  have down : 2 * f * den = 2 * (den * f) := by ring
  have down' : (2 * f + 1) * den = 2 * (den * f) + den := by ring
  have up : 2 * (f + 1) * den = 2 * (den * f) + 2 * den := by ring
  have up' : (2 * (f + 1) + 1) * den = 2 * (den * f) + 3 * den := by ring
  split
  · rw [down, down']
    omega
  split
  · rw [up, up']
    omega
  · rcases Nat.mod_two_eq_zero_or_one f with even | odd
    · have same : f + f % 2 = f := by omega
      rw [same, down, down']
      omega
    · have next : f + f % 2 = f + 1 := by omega
      rw [next, up, up']
      omega

theorem rounded_roundDiv (num : Nat) {den : Nat} (hd : 0 < den) :
    Rounded (num / den : ℚ) (roundDiv num den) := by
  obtain ⟨upper, lower, even⟩ := roundDiv_spec num hd
  generalize roundDiv num den = q at *
  have positive : (0 : ℚ) < den := by exact_mod_cast hd
  have upper : 2 * (num : ℚ) ≤ (2 * q + 1) * den := by exact_mod_cast upper
  have lower : 2 * q * den ≤ 2 * (num : ℚ) + den := by exact_mod_cast lower
  refine ⟨?_, ?_, fun tie => even ?_⟩
  · rw [div_le_iff₀ positive]
    linarith
  · rw [le_div_iff₀ positive]
    linarith
  · rw [div_eq_iff positive.ne', div_eq_iff positive.ne'] at tie
    refine tie.imp (fun above => ?_) fun below => ?_
    · have twice : 2 * (num : ℚ) = (2 * q + 1) * den := by
        rw [above]
        ring
      exact_mod_cast twice
    · have twice : 2 * q * den = 2 * (num : ℚ) + den := by
        rw [below]
        ring
      exact_mod_cast twice

/-- How often a power goes into a quotient, rounded. -/
theorem rounded_shift {base : Nat} (num : Nat) {den : Nat} (e : Int) (hb : 0 < base) (hd : 0 < den) :
    Rounded (num / den / (base : ℚ) ^ e)
      (roundDiv (shift base num den (-e)).1 (shift base num den (-e)).2) := by
  have counted := shift_eq num den (-e) hb
  rw [zpow_neg, ← div_eq_mul_inv] at counted
  rw [← counted]
  exact rounded_roundDiv _ (shift_pos _ _ hb hd)

/-! ## Significands -/

theorem Place.mid_eq {m i q : Nat} (h : Place m i q) : mid m = (q + 1 / 2) * unit i := by
  rw [mid, h.value_eq, h.steps_eq]
  ring

section

variable {t : ℚ} {i q : Nat} (h : Rounded t q) (small : t < 2 ^ 53) (normal : i = 0 ∨ 2 ^ 52 ≤ t)

include h small in
theorem Rounded.le : q ≤ 2 * leastNormal := by
  have bound : (q : ℚ) < (2 * leastNormal + 1 : Nat) := by
    push_cast [leastNormal]
    linarith [h.lower]
  exact Nat.le_of_lt_succ (by exact_mod_cast bound)

include h normal in
theorem Rounded.normalized : i = 0 ∨ leastNormal ≤ q := by
  refine normal.imp_right fun normal => ?_
  have bound : (leastNormal : ℚ) < (q + 1 : Nat) := by
    push_cast [leastNormal]
    linarith [h.upper]
  exact Nat.le_of_lt_succ (by exact_mod_cast bound)

include h small normal in
theorem Rounded.le_mid : t * unit i ≤ mid (i * leastNormal + q) ∧
    (t * unit i = mid (i * leastNormal + q) → t = q + 1 / 2) := by
  have positive := unit_pos i
  rcases Nat.lt_or_eq_of_le (h.le small) with less | rfl
  · have here : Place (i * leastNormal + q) i q := ⟨rfl, less, h.normalized normal⟩
    rw [here.mid_eq]
    exact ⟨mul_le_mul_of_nonneg_right h.upper positive.le, mul_right_cancel₀ positive.ne'⟩
  · have less : t * unit i < mid (i * leastNormal + 2 * leastNormal) := by
      refine lt_trans ?_ (value_lt_mid _)
      rw [value_carry]
      exact mul_lt_mul_of_pos_right (by push_cast [leastNormal]; linarith) positive
    exact ⟨less.le, fun same => absurd same less.ne⟩

include h normal in
theorem Rounded.mid_le {p : Nat} (below : q = p + 1) (least : i = 0 ∨ leastNormal ≤ q)
    (most : q ≤ 2 * leastNormal) : mid (i * leastNormal + p) ≤ t * unit i ∧
      (t * unit i = mid (i * leastNormal + p) → t = q - 1 / 2) := by
  have positive := unit_pos i
  by_cases same_step : i = 0 ∨ leastNormal ≤ p
  · have here : Place (i * leastNormal + p) i p := ⟨rfl, by omega, same_step⟩
    have half : ((p : ℚ) + 1 / 2) = q - 1 / 2 := by
      rw [below]
      push_cast
      ring
    rw [here.mid_eq, half]
    exact ⟨mul_le_mul_of_nonneg_right h.lower positive.le, mul_right_cancel₀ positive.ne'⟩
  · -- The magnitude below has the unit of the step below.
    obtain ⟨j, rfl⟩ : ∃ j, i = j + 1 := Nat.exists_eq_succ_of_ne_zero (by omega)
    have first : p + 1 = leastNormal := by omega
    have here : Place ((j + 1) * leastNormal + p) j (leastNormal + p) :=
      ⟨by ring, by omega, .inr (by omega)⟩
    have count : ((leastNormal + p : Nat) : ℚ) = 2 ^ 53 - 1 := by
      have whole : leastNormal + p = 2 * leastNormal - 1 := by omega
      rw [whole]
      norm_num [leastNormal]
    have great : (2 : ℚ) ^ 52 ≤ t := normal.resolve_left j.succ_ne_zero
    have less : mid ((j + 1) * leastNormal + p) < t * unit (j + 1) := by
      rw [here.mid_eq, count, unit_succ]
      have positive := unit_pos j
      nlinarith
    exact ⟨less.le, fun same => absurd same less.ne'⟩

include h small normal in
/-- The magnitude that a rounded count of units makes up is nearest, whether or not the count was
rounded up to the next step. -/
theorem Rounded.nearest : Nearest (t * unit i) (i * leastNormal + q) := by
  obtain ⟨upper, tie⟩ := h.le_mid small normal
  have least := h.normalized normal
  rcases Nat.eq_zero_or_pos q with rfl | some
  · obtain rfl : i = 0 := least.resolve_right (by decide)
    exact Nearest.of_zero upper
  · obtain ⟨p, below⟩ : ∃ p, q = p + 1 := Nat.exists_eq_succ_of_ne_zero some.ne'
    obtain ⟨lower, tie'⟩ := h.mid_le normal below least (h.le small)
    have whole : i * leastNormal + q = i * leastNormal + p + 1 := by rw [below, Nat.add_assoc]
    rw [whole] at upper tie ⊢
    refine Nearest.of_below upper lower fun same => ?_
    have even : q % 2 = 0 := h.even (same.imp tie tie')
    unfold leastNormal
    omega

end

/-! ## The unit of a quotient -/

section

variable {num den : Nat} (hn : 0 < num) (hd : 0 < den)

include hn hd

/-- The exponent of the unit that a quotient is counted in. -/
def UnitOf (v : ℚ) (e : ℤ) : Prop :=
  -1074 ≤ e ∧ v / 2 ^ e < 2 ^ 53 ∧ (e = -1074 ∨ 2 ^ 52 ≤ v / 2 ^ e)

/-- The rounded significand counts the unit of the quotient. -/
theorem round_double : ∃ e, UnitOf (num / den) e ∧ (Grid.double.round num den).2 = e ∧
    Rounded (num / den / 2 ^ e : ℚ) (Grid.double.round num den).1 := by
  obtain ⟨low, high⟩ := quotient_bounds two_pos (Nat.log2_self_le hn.ne') Nat.lt_log2_self
    (Nat.log2_self_le hd.ne') Nat.lt_log2_self
  have rounded (e : ℤ) := rounded_shift num e two_pos hd
  rw [Nat.cast_two] at low high rounded
  unfold Grid.round Grid.double
  dsimp only
  generalize (Nat.log2 num : ℤ) - Nat.log2 den = g at low high
  generalize guess : max (g - (53 : Nat)) (-1074) = e
  have positive : (0 : ℚ) < 2 ^ e := zpow_pos two_pos _
  have scaled (a : ℤ) : (2 : ℚ) ^ a / 2 ^ e = 2 ^ (a - e) := (zpow_sub₀ two_ne_zero a e).symm
  have counted : (num / den / 2 ^ e : ℚ) < 2 ^ 53 ↔
      (shift 2 num den (-e)).1 / (shift 2 num den (-e)).2 < Nat.pow 2 53 := by
    rw [Nat.div_lt_iff_lt_mul (shift_pos _ _ two_pos hd), shift_lt _ _ _ two_pos hd, Nat.cast_two,
      div_lt_iff₀ positive, Nat.pow_eq, Nat.cast_pow, Nat.cast_two]
  split
  · next small =>
    refine ⟨e, ⟨by omega, counted.mpr small, ?_⟩, rfl, rounded e⟩
    rcases Int.lt_or_le (g - 53) (-1074) with subnormal | normal
    · exact .inl (by omega)
    · right
      have exact_guess : g - 1 - e = (52 : Nat) := by omega
      calc (2 : ℚ) ^ 52 = 2 ^ (g - 1) / 2 ^ e := by rw [scaled, exact_guess, zpow_natCast]
        _ ≤ num / den / 2 ^ e := div_le_div_of_nonneg_right low positive.le
  · next great =>
    rw [← counted, not_lt] at great
    -- The logarithms left one bit open, and the significand has it: the unit is the next one.
    have halved : (num / den / 2 ^ (e + 1) : ℚ) = num / den / 2 ^ e / 2 := by
      rw [zpow_add_one₀ two_ne_zero, div_div (num / den : ℚ)]
    have double : (num / den / 2 ^ e : ℚ) < 2 ^ 54 := by
      calc (num / den / 2 ^ e : ℚ) < 2 ^ (g + 1) / 2 ^ e := div_lt_div_of_pos_right high positive
        _ = 2 ^ (g + 1 - e) := scaled _
        _ ≤ 2 ^ ((54 : Nat) : ℤ) := zpow_le_zpow_right₀ one_le_two (by omega)
        _ = 2 ^ 54 := zpow_natCast _ _
    refine ⟨e + 1, ⟨by omega, ?_, .inr ?_⟩, rfl, rounded (e + 1)⟩
    · rw [halved]
      linarith
    · rw [halved]
      linarith

end

/-! ## The nearest double -/

theorem unit_eq {i : Nat} {e : ℤ} (h : e = i - 1074) : unit i = 2 ^ e := by
  rw [unit, h]

/-- Every quotient has a nearest magnitude, and it is the one it is rounded to. -/
theorem ofRatio_nearest (num : Nat) {den : Nat} (hd : 0 < den) :
    ∃ m, Nearest (num / den) m ∧
      ∀ negative, ofRatio negative num den = ofMagnitude negative (min m infiniteMagnitude) := by
  rcases Nat.eq_zero_or_pos num with rfl | hn
  · refine ⟨0, Nearest.of_zero ?_, fun _ => rfl⟩
    rw [Nat.cast_zero, zero_div]
    exact (value_nonneg 0).trans (value_lt_mid 0).le
  · obtain ⟨e, ⟨least, small, normal⟩, exponent, rounded⟩ := round_double hn hd
    have step : e = ((e + 1074).toNat : ℤ) - 1074 := by omega
    have near := rounded.nearest small (normal.imp_left (b := (e + 1074).toNat = 0) (by omega))
    rw [unit_eq step, div_mul_cancel₀ _ (zpow_pos two_pos e).ne'] at near
    refine ⟨_, near, fun negative => ?_⟩
    rw [ofRatio, if_neg hn.ne', ← exponent]

theorem ofRatio_eq {num den m : Nat} (hd : 0 < den) (near : Nearest (num / den) m)
    (negative : Bool) :
    ofRatio negative num den = ofMagnitude negative (min m infiniteMagnitude) := by
  obtain ⟨n, near', rounds⟩ := ofRatio_nearest num hd
  rw [rounds, near.unique near']

/-! ### Signs -/

section

variable {m : Nat} (h : m ≤ infiniteMagnitude) (negative : Bool)

include h

theorem word_ofMagnitude : (ofMagnitude negative m).word = (if negative then signBit else 0) + m := by
  unfold infiniteMagnitude leastNormal at h
  rw [ofMagnitude, word, UInt64.toNat_ofNat', Nat.mod_eq_of_lt]
  unfold signBit
  split <;> omega

theorem magnitude_ofMagnitude : (ofMagnitude negative m).magnitude = m := by
  rw [magnitude, word_ofMagnitude h]
  unfold infiniteMagnitude leastNormal at h
  unfold signBit
  split <;> omega

theorem isNegative_ofMagnitude : (ofMagnitude negative m).isNegative = negative := by
  rw [isNegative, word_ofMagnitude h]
  unfold infiniteMagnitude leastNormal at h
  unfold signBit
  cases negative
  · exact decide_eq_false (by simp only [Bool.false_eq_true, if_false]; omega)
  · exact decide_eq_true (by simp only [if_true]; omega)

end

/-- A double is its sign and its magnitude. -/
theorem ofMagnitude_magnitude (x : Double) : ofMagnitude x.isNegative x.magnitude = x := by
  have bound : x.word < 0x10000000000000000 := x.bits.toNat_lt
  have whole : (if x.isNegative then signBit else 0) + x.magnitude = x.word := by
    unfold isNegative magnitude signBit
    by_cases high : 0x8000000000000000 ≤ x.word
    · rw [if_pos (decide_eq_true high)]
      omega
    · rw [if_neg (by simpa using high)]
      omega
  rw [ofMagnitude, whole, word, UInt64.ofNat_toNat]

/-! ### Operations -/

/-- What a double stands for, without its sign. -/
def size (x : Double) : ℚ := value x.magnitude

theorem size_eq (x : Double) : x.size = x.sig * 2 ^ x.exp := value_magnitude x

theorem ofScaled_eq {num den m : Nat} {e : Int} (hd : 0 < den)
    (near : Nearest (num / den * 2 ^ e) m) (negative : Bool) :
    ofScaled negative num den e = ofMagnitude negative (min m infiniteMagnitude) := by
  have scaled := shift_eq num den e two_pos
  rw [Nat.cast_two] at scaled
  rw [← scaled] at near
  exact ofRatio_eq (shift_pos _ e two_pos hd) near negative

theorem mul_eq {x y : Double} {m : Nat} (near : Nearest (x.size * y.size) m) :
    x.mul y = ofMagnitude (x.isNegative != y.isNegative) (min m infiniteMagnitude) := by
  refine ofScaled_eq Nat.one_pos ?_ _
  rw [size_eq, size_eq] at near
  rw [Nat.cast_mul, Nat.cast_one, div_one, zpow_add₀ two_ne_zero, mul_mul_mul_comm]
  exact near

theorem div_eq {x y : Double} {m : Nat} (nonzero : y.magnitude ≠ 0)
    (near : Nearest (x.size / y.size) m) :
    x.div y = ofMagnitude (x.isNegative != y.isNegative) (min m infiniteMagnitude) := by
  have some : 0 < y.sig := by
    have whole := (exists_place y.magnitude).whole
    have normal := (exists_place y.magnitude).normal
    rw [← sig_eq] at whole normal
    rcases normal with none | normal
    · rw [none, Nat.zero_mul, Nat.zero_add] at whole
      omega
    · exact Nat.lt_of_lt_of_le (by decide) normal
  refine ofScaled_eq some ?_ _
  rw [size_eq, size_eq] at near
  rw [zpow_sub₀ two_ne_zero, div_mul_div_comm]
  exact near

theorem ofNat_eq {n m : Nat} (near : Nearest n m) :
    ofNat n = ofMagnitude false (min m infiniteMagnitude) := by
  refine ofRatio_eq Nat.one_pos ?_ false
  rw [Nat.cast_one, div_one]
  exact near

/-- Every number from zero on has a nearest magnitude. -/
theorem exists_nearest {v : ℚ} (hv : 0 ≤ v) : ∃ m, Nearest v m := by
  obtain ⟨n, hn⟩ := Int.eq_ofNat_of_zero_le (Rat.num_nonneg.mpr hv)
  obtain ⟨m, near, -⟩ := ofRatio_nearest n v.den_pos
  have whole : (n : ℚ) / v.den = v := by
    rw [← Int.cast_natCast, ← hn]
    exact v.num_div_den
  exact ⟨m, whole ▸ near⟩

end Double

end NamedStores
