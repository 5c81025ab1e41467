/-
The shortest decimal of a double stands for it: the magnitude of the double is nearest to the
decimal. It is sought with one digit, two, and so on, and with 17 the search comes to an end, since
the decimals with 17 digits lie closer together than the doubles.
-/
import NamedStores.Double.Shortest
import NamedStores.Proofs.Double.Rounding

namespace NamedStores

/-! ## Decimals -/

/-- A number lies between the powers of ten that its length says. -/
theorem exists_length_toDigits {n : Nat} (hn : 0 < n) :
    ∃ k, (Nat.toDigits 10 n).length = k + 1 ∧ 10 ^ k ≤ n ∧ n < 10 ^ (k + 1) := by
  obtain ⟨k, long⟩ := Nat.exists_eq_add_one.2 (Nat.length_toDigits_pos (b := 10) (n := n))
  refine ⟨k, long, ?_, (Nat.length_toDigits_le_iff (by decide) k.succ_pos).mp long.le⟩
  rcases Nat.eq_zero_or_pos k with rfl | some
  · exact hn
  · have longer : ¬ (Nat.toDigits 10 n).length ≤ k := by omega
    rw [Nat.length_toDigits_le_iff (by decide) some] at longer
    exact Nat.le_of_not_lt longer

namespace Decimal

/-- What a decimal stands for. -/
def value (d : Decimal) : ℚ := d.digits * 10 ^ d.exponent

theorem value_strip (fuel : Nat) (d : Decimal) : (strip fuel d).value = d.value := by
  induction fuel generalizing d with
  | zero => rfl
  | succ fuel ih =>
    rw [strip]
    split
    · next zero_last =>
      have whole : (d.digits : ℚ) = 10 * (d.digits / 10 : Nat) := by
        have tens : d.digits = 10 * (d.digits / 10) := by omega
        exact_mod_cast tens
      rw [ih, value, value, whole, zpow_add₀ (by norm_num), zpow_one]
      ring
    · rfl

theorem digits_strip (fuel : Nat) (d : Decimal) :
    (strip fuel d).digits ≤ d.digits ∧ (0 < d.digits → 0 < (strip fuel d).digits) := by
  induction fuel generalizing d with
  | zero => exact ⟨le_rfl, id⟩
  | succ fuel ih =>
    rw [strip]
    split
    · next zero_last =>
      obtain ⟨less, some⟩ := ih ⟨d.digits / 10, d.exponent + 1⟩
      exact ⟨less.trans (Nat.div_le_self _ _), fun _ => some (by simp only; omega)⟩
    · exact ⟨le_rfl, id⟩

/-- The places of a quotient are those of its first digit. -/
theorem places_spec {num den : Nat} (hn : 0 < num) (hd : 0 < den) :
    (10 : ℚ) ^ (places num den - 1) ≤ num / den ∧ (num / den : ℚ) < 10 ^ places num den := by
  obtain ⟨a, long, low, high⟩ := exists_length_toDigits hn
  obtain ⟨b, long', low', high'⟩ := exists_length_toDigits hd
  obtain ⟨above, below⟩ := quotient_bounds (by decide : 0 < 10) low high low' high'
  have ten : ((10 : Nat) : ℚ) = 10 := by norm_num
  rw [ten] at above below
  have guess : ((Nat.toDigits 10 num).length : ℤ) - Int.ofNat (Nat.toDigits 10 den).length =
      (a : ℤ) - b := by
    rw [long, long', Int.ofNat_eq_natCast]
    push_cast
    ring
  have compared := shift_lt num 1 ((a : ℤ) - b) (by decide : 0 < 10) hd
  rw [Nat.one_mul, Nat.cast_one, one_mul, ten] at compared
  unfold places
  dsimp only
  rw [guess]
  split
  · next small => exact ⟨above, compared.mp small⟩
  · next great =>
    rw [compared, not_lt] at great
    rw [add_sub_cancel_right]
    exact ⟨great, below⟩

end Decimal

namespace Double

/-! ## Between the midpoints -/

theorem mid_magnitude (x : Double) : mid x.magnitude = x.midpoints.2 * 2 ^ (x.exp - 2) := by
  rw [midpoints, (exists_place _).mid_eq, ← sig_eq, unit_eq (exp_eq x), zpow_sub₀ two_ne_zero]
  push_cast
  ring

/-- The midpoint below lies nearer where the unit below is smaller. -/
theorem mid_below {x : Double} {n : Nat} (hn : x.magnitude = n + 1) :
    mid n = x.midpoints.1 * 2 ^ (x.exp - 2) := by
  have here := exists_place x.magnitude
  rw [← sig_eq] at here
  have exponent := exp_eq x
  have size : value n + unit (steps n) = x.sig * unit (steps x.magnitude) := by
    rw [← value_succ, ← hn, here.value_eq]
  generalize steps x.magnitude = i at here exponent size
  have some : 1 ≤ x.sig := by
    obtain ⟨whole, -, normal⟩ := here
    unfold leastNormal at whole normal
    omega
  have quarter : (2 : ℚ) ^ (x.exp - 2) = unit i / 4 := by
    rw [zpow_sub₀ two_ne_zero, unit_eq exponent]
    norm_num
  rw [midpoints, quarter]
  dsimp only
  split
  · next edge =>
    -- The first magnitude of a step: the one below belongs to the step before, with half the unit.
    obtain ⟨first, above⟩ := edge
    obtain ⟨j, rfl⟩ : ∃ j, i = j + 1 := Nat.exists_eq_succ_of_ne_zero (by omega)
    have below : Place n j (2 * leastNormal - 1) := by
      refine ⟨?_, by decide, .inr (by decide)⟩
      have whole := here.whole
      rw [hn, first] at whole
      unfold leastNormal at whole ⊢
      omega
    rw [unit_succ, below.steps_eq] at size
    rw [mid, below.steps_eq, unit_succ, Nat.cast_sub (by omega)]
    push_cast
    linarith
  · next inside =>
    have below : Place n i (x.sig - 1) := by
      obtain ⟨whole, small, normal⟩ := here
      refine ⟨by omega, by omega, ?_⟩
      unfold leastNormal at *
      omega
    rw [below.steps_eq] at size
    rw [mid, below.steps_eq, Nat.cast_sub (by omega)]
    push_cast
    linarith

theorem even_sig (x : Double) : x.sig % 2 = 0 ↔ x.magnitude % 2 = 0 := by
  have whole := (exists_place x.magnitude).whole
  rw [← sig_eq] at whole
  unfold leastNormal at whole
  omega

/-- A decimal is compared with a multiple of the unit, both with their denominators put across. -/
theorem compare_units (a c : Nat) (e k : Int) :
    (a * (shift 2 1 1 e).1 * (shift 10 c 1 k).2 ≤ (shift 10 c 1 k).1 * (shift 2 1 1 e).2 ↔
      (a * 2 ^ e : ℚ) ≤ c * 10 ^ k) ∧
    ((shift 10 c 1 k).1 * (shift 2 1 1 e).2 ≤ a * (shift 2 1 1 e).1 * (shift 10 c 1 k).2 ↔
      (c * 10 ^ k : ℚ) ≤ a * 2 ^ e) := by
  have unit_part := shift_eq 1 1 e two_pos
  have part_pos : (0 : ℚ) < (shift 2 1 1 e).2 := by
    exact_mod_cast shift_pos _ _ two_pos Nat.one_pos
  have decimal := shift_eq c 1 k (by decide : 0 < 10)
  have den_pos : (0 : ℚ) < (shift 10 c 1 k).2 := by
    exact_mod_cast shift_pos c k (by decide : 0 < 10) Nat.one_pos
  have ten : ((10 : Nat) : ℚ) = 10 := by norm_num
  rw [Nat.cast_one, div_one, one_mul, Nat.cast_two] at unit_part
  rw [Nat.cast_one, div_one, ten] at decimal
  rw [← unit_part, ← decimal, mul_div_assoc', div_le_div_iff₀ part_pos den_pos,
    div_le_div_iff₀ den_pos part_pos]
  constructor <;> exact_mod_cast Iff.rfl

/-- The decimals that stand for a number are those it is nearest to. -/
theorem standsFor_iff {x : Double} (nonzero : x.magnitude ≠ 0) (c : Nat) (k : Int) :
    x.standsFor c k = true ↔ Nearest (c * 10 ^ k) x.magnitude := by
  obtain ⟨n, hn⟩ := Nat.exists_eq_succ_of_ne_zero nonzero
  have above (a : Nat) := (compare_units a c (x.exp - 2) k).1
  have below (b : Nat) := (compare_units b c (x.exp - 2) k).2
  have parity := even_sig x
  unfold standsFor
  dsimp only
  by_cases even : x.sig % 2 = 0
  · rw [if_pos even, Bool.and_eq_true, decide_eq_true_eq, decide_eq_true_eq, above, below,
      ← mid_magnitude, ← mid_below hn]
    rw [parity, hn] at even
    rw [hn, nearest_even even]
  · rw [if_neg even, Bool.and_eq_true, decide_eq_true_eq, decide_eq_true_eq, ← not_le, ← not_le,
      above, below, not_le, not_le, ← mid_magnitude, ← mid_below hn]
    rw [parity, hn] at even
    rw [hn, nearest_odd even]

/-! ## The search -/

/-- A decimal that is off by less than half a unit below a magnitude stands for it. -/
theorem nearest_of_close {v w : ℚ} {n : Nat} (same : v = value (n + 1))
    (close : |w - v| < unit (steps n) / 2) : Nearest w (n + 1) := by
  obtain ⟨low, high⟩ := abs_lt.mp close
  have lower : mid n < w := by
    rw [mid]
    rw [same, value_succ] at low
    linarith
  have upper : w < mid (n + 1) := by
    have grown : unit (steps n) ≤ unit (steps (n + 1)) :=
      zpow_le_zpow_right₀ one_le_two (by unfold steps leastNormal; omega)
    rw [mid]
    rw [same] at high
    linarith
  exact .of_between lower upper

section

variable {x : Double} (nonzero : x.magnitude ≠ 0) {num den : Nat} (hd : 0 < den)
  (whole : (num / den : ℚ) = value x.magnitude)

include nonzero whole

theorem num_pos : 0 < num := by
  refine Nat.pos_of_ne_zero fun none => ?_
  have some := value_pos (Nat.pos_of_ne_zero nonzero)
  rw [← whole, none, Nat.cast_zero, zero_div] at some
  exact lt_irrefl 0 some

include hd

/-- With 17 digits the nearest decimal stands for a number. -/
theorem stands_seventeen : x.standsFor
    (roundDiv (shift 10 num den (-(Decimal.places num den - 17))).1
      (shift 10 num den (-(Decimal.places num den - 17))).2) (Decimal.places num den - 17) = true := by
  obtain ⟨n, hn⟩ := Nat.exists_eq_succ_of_ne_zero nonzero
  obtain ⟨low, -⟩ := Decimal.places_spec (num_pos nonzero whole) hd
  have rounded := rounded_shift num (Decimal.places num den - 17) (by decide : 0 < 10) hd
  have split : Decimal.places num den - 1 = Decimal.places num den - 17 + (16 : Nat) := by omega
  have ten : ((10 : Nat) : ℚ) = 10 := by norm_num
  rw [split, zpow_add₀ (by norm_num), zpow_natCast, whole] at low
  rw [ten, whole] at rounded
  rw [standsFor_iff nonzero]
  generalize Decimal.places num den - 17 = k at *
  generalize roundDiv (shift 10 num den (-k)).1 (shift 10 num den (-k)).2 = c at *
  have power : (0 : ℚ) < 10 ^ k := zpow_pos (by norm_num) k
  -- The step of the decimals is less than the unit below the number.
  have step : (10 : ℚ) ^ k < unit (steps n) := by
    have bound := value_lt n
    rw [hn, value_succ] at low
    linarith
  have upper : value x.magnitude ≤ (c + 1 / 2) * 10 ^ k := (div_le_iff₀ power).mp rounded.upper
  have lower : (c - 1 / 2) * 10 ^ k ≤ value x.magnitude := (le_div_iff₀ power).mp rounded.lower
  have close : |(c : ℚ) * 10 ^ k - value x.magnitude| < unit (steps n) / 2 := by
    rw [abs_lt]
    constructor <;> linarith
  rw [hn] at close ⊢
  exact nearest_of_close rfl close

/-- What the search finds stands for the number and has at most so many digits. -/
theorem nearest?_stands {count : Nat} {d : Decimal}
    (found : x.nearest? num den (Decimal.places num den - count) = some d) :
    x.standsFor d.digits d.exponent = true ∧ d.digits ≤ 10 ^ count := by
  obtain ⟨-, high⟩ := Decimal.places_spec (num_pos nonzero whole) hd
  have short : (shift 10 num den (-(Decimal.places num den - count))).1 <
      10 ^ count * (shift 10 num den (-(Decimal.places num den - count))).2 := by
    have ten : ((10 : Nat) : ℚ) = 10 := by norm_num
    rw [shift_lt _ _ _ (by decide) hd, Nat.cast_pow, ten, ← zpow_natCast,
      ← zpow_add₀ (by norm_num), add_sub_cancel]
    exact high
  have positive := shift_pos num (-(Decimal.places num den - count)) (by decide : 0 < 10) hd
  unfold nearest? at found
  generalize shift 10 num den (-(Decimal.places num den - count)) = fraction at *
  obtain ⟨n, d'⟩ := fraction
  dsimp only at found short positive
  have floor : n / d' < 10 ^ count := by
    rwa [Nat.div_lt_iff_lt_mul positive]
  have rounded : roundDiv n d' ≤ n / d' + 1 := by
    unfold roundDiv
    dsimp only
    split
    · omega
    split <;> omega
  have other : (if roundDiv n d' = n / d' then roundDiv n d' + 1 else roundDiv n d' - 1) ≤
      10 ^ count := by
    split <;> omega
  generalize (if roundDiv n d' = n / d' then roundDiv n d' + 1 else roundDiv n d' - 1) = c at *
  split at found
  · next stands =>
    cases found
    exact ⟨stands, Nat.le_trans rounded floor⟩
  split at found
  · next stands =>
    cases found
    exact ⟨stands, other⟩
  · cases found

theorem search_stands : ∀ {fuel count : Nat}, fuel + count = 18 → 0 < fuel →
    ∃ d : Decimal, x.search num den (Decimal.places num den) fuel count = d.strip 18 ∧
      x.standsFor d.digits d.exponent = true ∧ d.digits ≤ 10 ^ 17
  | 0, _, _, left => absurd left (Nat.lt_irrefl 0)
  | fuel + 1, count, total, _ => by
    rw [search]
    cases found : x.nearest? num den (Decimal.places num den - count) with
    | some d =>
      obtain ⟨stands, short⟩ := nearest?_stands nonzero hd whole found
      exact ⟨d, rfl, stands, short.trans (Nat.pow_le_pow_right (by decide) (by omega))⟩
    | none =>
      refine search_stands (by omega) (Nat.pos_of_ne_zero fun last => ?_)
      obtain rfl : count = 17 := by omega
      have stands := stands_seventeen nonzero hd whole
      rw [nearest?] at found
      dsimp only at found
      rw [if_pos (by exact_mod_cast stands)] at found
      cases found

end

/-- The shortest decimal of a number that is not zero stands for it, and has 17 digits at most. -/
theorem shortest_stands {x : Double} (nonzero : x.magnitude ≠ 0) :
    Nearest x.shortest.value x.magnitude ∧ 0 < x.shortest.digits ∧ x.shortest.digits ≤ 10 ^ 17 := by
  have whole := shift_eq x.sig 1 x.exp two_pos
  rw [Nat.cast_one, div_one, Nat.cast_two, ← value_magnitude] at whole
  obtain ⟨d, found, stands, short⟩ :=
    search_stands nonzero (shift_pos _ x.exp two_pos Nat.one_pos) whole (by decide : 17 + 1 = 18)
      (by decide)
  have shortest : x.shortest = d.strip 18 := found
  rw [standsFor_iff nonzero] at stands
  obtain ⟨less, some⟩ := Decimal.digits_strip 18 d
  rw [shortest, Decimal.value_strip]
  refine ⟨stands, some (Nat.pos_of_ne_zero fun none => ?_), less.trans short⟩
  have low := stands.lower 0 (Nat.pos_of_ne_zero nonzero)
  rw [none, Nat.cast_zero, zero_mul] at low
  exact absurd ((value_nonneg 0).trans_lt (value_lt_mid 0)) (not_lt.mpr low)

end Double

end NamedStores
