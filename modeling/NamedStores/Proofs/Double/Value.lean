/-
What the magnitude of a double stands for, as a rational number, and which magnitude is nearest to a
number. A magnitude is `i * 2 ^ 52 + q`, where `q` has at most 53 bits and is not below `2 ^ 52`
unless `i` is zero; it stands for `q` units, and the unit is `2 ^ (i - 1074)`. From one magnitude to
the next the value grows by a unit, also where the unit doubles. Beyond the largest double the
magnitudes go on in the same way, so that overflow can be looked at last.

A magnitude is nearest to the numbers between the midpoints to its neighbours, and to these
midpoints themselves if it is even. `Nearest.le` is what everything else rests on: of two numbers
the greater one has no lesser magnitude nearest to it.
-/
import Mathlib.Algebra.Order.Field.Rat
import Mathlib.Tactic.FieldSimp
import Mathlib.Tactic.Linarith
import Mathlib.Tactic.NormNum
import Mathlib.Tactic.Positivity
import Mathlib.Tactic.Ring
import NamedStores.Double.Basic

namespace NamedStores.Double

/-! ## Places -/

/-- The unit so many steps above the least. -/
def unit (i : Nat) : ℚ := 2 ^ ((i : ℤ) - 1074)

theorem unit_pos (i : Nat) : 0 < unit i := zpow_pos (by norm_num) _

theorem unit_succ (i : Nat) : unit (i + 1) = 2 * unit i := by
  unfold unit
  rw [← zpow_one_add₀ (by norm_num)]
  congr 1
  push_cast
  ring

/-- How many steps the unit of a magnitude lies above the least. -/
def steps (m : Nat) : Nat := m / leastNormal - 1

/-- So many units make up a magnitude. -/
structure Place (m i q : Nat) : Prop where
  whole : m = i * leastNormal + q
  small : q < 2 * leastNormal
  normal : i = 0 ∨ leastNormal ≤ q

theorem exists_place (m : Nat) : Place m (steps m) (m - steps m * leastNormal) := by
  unfold steps leastNormal
  refine ⟨?_, ?_, ?_⟩ <;> simp only [leastNormal] <;> omega

theorem Place.steps_eq {m i q : Nat} (h : Place m i q) : steps m = i := by
  obtain ⟨rfl, small, normal⟩ := h
  simp only [steps, leastNormal] at small normal ⊢
  omega

/-! ## Values -/

/-- What a magnitude stands for. -/
def value (m : Nat) : ℚ := (m - steps m * leastNormal : Nat) * unit (steps m)

theorem Place.value_eq {m i q : Nat} (h : Place m i q) : value m = q * unit i := by
  rw [value, h.steps_eq, h.whole, Nat.add_sub_cancel_left]

/-- A significand of one bit more counts at the next step. -/
theorem value_carry (i : Nat) :
    value (i * leastNormal + 2 * leastNormal) = (2 * leastNormal : Nat) * unit i := by
  have next : Place (i * leastNormal + 2 * leastNormal) (i + 1) leastNormal :=
    ⟨by ring, by decide, .inr le_rfl⟩
  rw [next.value_eq, unit_succ]
  push_cast
  ring

/-- The value of a magnitude whose significand may have been rounded up to the next step. -/
theorem value_of_le {i q : Nat} (small : q ≤ 2 * leastNormal) (normal : i = 0 ∨ leastNormal ≤ q) :
    value (i * leastNormal + q) = q * unit i := by
  rcases Nat.lt_or_eq_of_le small with less | rfl
  · exact Place.value_eq ⟨rfl, less, normal⟩
  · exact value_carry i

theorem value_zero : value 0 = 0 := by
  have none : Place 0 0 0 := ⟨rfl, by decide, .inl rfl⟩
  rw [none.value_eq, Nat.cast_zero, zero_mul]

theorem value_succ (m : Nat) : value (m + 1) = value m + unit (steps m) := by
  have here := exists_place m
  have whole : m + 1 = steps m * leastNormal + (m - steps m * leastNormal + 1) :=
    by rw [← Nat.add_assoc, ← here.whole]
  rw [here.value_eq, whole, value_of_le here.small (here.normal.imp_right Nat.le_succ_of_le)]
  push_cast
  ring

theorem value_strictMono : StrictMono value := by
  refine strictMono_nat_of_lt_succ fun m => ?_
  rw [value_succ]
  exact lt_add_of_pos_right _ (unit_pos _)

theorem value_nonneg (m : Nat) : 0 ≤ value m := by
  rw [← value_zero]
  exact value_strictMono.monotone (Nat.zero_le m)

theorem value_pos {m : Nat} (h : 0 < m) : 0 < value m := by
  rw [← value_zero]
  exact value_strictMono h

/-- A magnitude is less than `2 ^ 53` units. -/
theorem value_lt (m : Nat) : value m < 2 ^ 53 * unit (steps m) := by
  have here := exists_place m
  rw [here.value_eq]
  have less : ((m - steps m * leastNormal : Nat) : ℚ) < 2 ^ 53 := by
    exact_mod_cast here.small
  exact mul_lt_mul_of_pos_right less (unit_pos _)

theorem sig_eq (x : Double) : x.sig = x.magnitude - steps x.magnitude * leastNormal := by
  unfold sig steps leastNormal
  split <;> omega

theorem exp_eq (x : Double) : x.exp = (steps x.magnitude : ℤ) - 1074 := by
  unfold exp steps leastNormal
  rw [Int.ofNat_eq_natCast]
  split <;> omega

theorem value_magnitude (x : Double) : value x.magnitude = x.sig * 2 ^ x.exp := by
  rw [sig_eq, exp_eq]
  rfl

/-! ## Midpoints -/

/-- The midpoint between a magnitude and the next. -/
def mid (m : Nat) : ℚ := value m + unit (steps m) / 2

theorem value_lt_mid (m : Nat) : value m < mid m :=
  lt_add_of_pos_right _ (half_pos (unit_pos _))

theorem mid_lt_value_succ (m : Nat) : mid m < value (m + 1) := by
  rw [mid, value_succ]
  exact add_lt_add_right (half_lt_self (unit_pos _)) _

theorem mid_strictMono : StrictMono mid :=
  strictMono_nat_of_lt_succ fun m => (mid_lt_value_succ m).trans (value_lt_mid (m + 1))

theorem mid_lt_value {m n : Nat} (h : m < n) : mid m < value n :=
  (mid_lt_value_succ m).trans_le (value_strictMono.monotone h)

/-! ## The nearest magnitude -/

/-- The magnitude that a number is rounded to. -/
structure Nearest (v : ℚ) (m : Nat) : Prop where
  upper : v ≤ mid m
  lower : ∀ n < m, mid n ≤ v
  even : v = mid m ∨ (∃ n < m, v = mid n) → m % 2 = 0

theorem Nearest.le {v w : ℚ} {m n : Nat} (hm : Nearest v m) (hn : Nearest w n) (h : v ≤ w) :
    m ≤ n := by
  by_contra above
  have less : n < m := Nat.lt_of_not_le above
  have low : mid n ≤ v := hm.lower n less
  have same : v = mid n := le_antisymm (h.trans hn.upper) low
  have even : m % 2 = 0 := hm.even (.inr ⟨n, less, same⟩)
  have even' : n % 2 = 0 := hn.even (.inl (le_antisymm hn.upper (same ▸ h)))
  -- Both are even, so there is one between them, with a midpoint of its own.
  have between : mid (n + 1) ≤ v := hm.lower (n + 1) (by omega)
  exact absurd (same ▸ between) (not_le.2 (mid_strictMono n.lt_succ_self))

theorem Nearest.unique {v : ℚ} {m n : Nat} (hm : Nearest v m) (hn : Nearest v n) : m = n :=
  Nat.le_antisymm (hm.le hn le_rfl) (hn.le hm le_rfl)

/-- The value of a magnitude is not rounded. -/
theorem Nearest.value (m : Nat) : Nearest (value m) m where
  upper := (value_lt_mid m).le
  lower _ h := (mid_lt_value h).le
  even := by
    rintro (same | ⟨n, less, same⟩)
    · exact absurd same (value_lt_mid m).ne
    · exact absurd same (mid_lt_value less).ne'

/-- Only the midpoint below matters. -/
theorem Nearest.of_below {v : ℚ} {m : Nat} (upper : v ≤ mid (m + 1)) (lower : mid m ≤ v)
    (even : v = mid (m + 1) ∨ v = mid m → (m + 1) % 2 = 0) : Nearest v (m + 1) where
  upper := upper
  lower n h := (mid_strictMono.monotone (Nat.le_of_lt_succ h)).trans lower
  even := by
    rintro (above | ⟨n, h, same⟩)
    · exact even (.inl above)
    · rcases Nat.lt_or_eq_of_le (Nat.le_of_lt_succ h) with less | rfl
      · exact absurd (same ▸ lower) (not_le.2 (mid_strictMono less))
      · exact even (.inr same)

theorem Nearest.of_between {v : ℚ} {m : Nat} (lower : mid m < v) (upper : v < mid (m + 1)) :
    Nearest v (m + 1) := by
  refine .of_below upper.le lower.le ?_
  rintro (tie | tie)
  · exact absurd tie upper.ne
  · exact absurd tie lower.ne'

/-- An even magnitude takes the midpoints on both sides. -/
theorem nearest_even {v : ℚ} {m : Nat} (even : (m + 1) % 2 = 0) :
    Nearest v (m + 1) ↔ mid m ≤ v ∧ v ≤ mid (m + 1) :=
  ⟨fun near => ⟨near.lower m m.lt_succ_self, near.upper⟩,
    fun ⟨lower, upper⟩ => .of_below upper lower fun _ => even⟩

theorem nearest_odd {v : ℚ} {m : Nat} (odd : ¬ (m + 1) % 2 = 0) :
    Nearest v (m + 1) ↔ mid m < v ∧ v < mid (m + 1) := by
  refine ⟨fun near => ⟨?_, ?_⟩, fun ⟨lower, upper⟩ => .of_between lower upper⟩
  · exact lt_of_le_of_ne (near.lower m m.lt_succ_self)
      fun same => odd (near.even (.inr ⟨m, m.lt_succ_self, same.symm⟩))
  · exact lt_of_le_of_ne near.upper fun same => odd (near.even (.inl same))

theorem Nearest.of_zero {v : ℚ} (h : v ≤ mid 0) : Nearest v 0 :=
  ⟨h, fun _ h => absurd h (Nat.not_lt_zero _), fun _ => rfl⟩

/-- A number that is no greater than a magnitude is rounded to none that is greater. -/
theorem Nearest.le_of_le_value {v : ℚ} {m n : Nat} (near : Nearest v m) (h : v ≤ Double.value n) :
    m ≤ n :=
  near.le (.value n) h

theorem Nearest.le_of_value_le {v : ℚ} {m n : Nat} (near : Nearest v m) (h : Double.value n ≤ v) :
    n ≤ m :=
  (Nearest.value n).le near h

end NamedStores.Double
