/-
The digits of a number read back as the number.
-/
import NamedStores.Text.Integer

namespace NamedStores.Integer

theorem exists_of_mem_toDigits {base n : Nat} (hb : 1 < base) {c : Char}
    (h : c ∈ Nat.toDigits base n) : ∃ k < base, c = Nat.digitChar k := by
  induction n using Nat.base_induction base hb with
  | single m hm =>
    rw [Nat.toDigits_of_lt_base hm, List.mem_singleton] at h
    exact ⟨m, hm, h⟩
  | digit m k hk hm ih =>
    rw [← Nat.toDigits_append_toDigits hb hm hk, List.mem_append, Nat.toDigits_of_lt_base hk,
      List.mem_singleton] at h
    rcases h with front | last
    · exact ih front
    · exact ⟨k, hk, last⟩

/-- What is so of the ten digits is so of every character of a number. -/
theorem forall_mem_toDigits {p : Char → Prop} (digits : ∀ k < 10, p (Nat.digitChar k)) (n : Nat) :
    ∀ c ∈ Nat.toDigits 10 n, p c := by
  intro c hc
  obtain ⟨k, hk, rfl⟩ := exists_of_mem_toDigits (by decide) hc
  exact digits k hk

theorem digitsValue_toDigits (n : Nat) : digitsValue (Nat.toDigits 10 n) = n := by
  have same : ∀ (cs : List Char) (acc : Nat),
      cs.foldl (fun n c => n * 10 + (c.toNat - 0x30)) acc = Nat.ofDigitChars 10 cs acc := by
    intro cs
    induction cs with
    | nil => intro acc; rw [List.foldl_nil, Nat.ofDigitChars_nil]
    | cons c cs ih =>
      intro acc
      rw [List.foldl_cons, ih, Nat.ofDigitChars_cons, Nat.mul_comm acc]
      rfl
  rw [digitsValue, same, Nat.ofDigitChars_ten_toDigits]

theorem natural?_toDigits (n : Nat) : natural? (Nat.toDigits 10 n) = some n := by
  have digits : (Nat.toDigits 10 n).all isDigit = true :=
    List.all_eq_true.mpr (forall_mem_toDigits (p := fun c => isDigit c = true) (by decide) n)
  rw [natural?, if_pos ⟨Nat.toDigits_ne_nil, digits⟩, digitsValue_toDigits]

theorem signed64?_bounds {cs : List Char} {i : Int} (h : signed64? cs = some i) :
    -0x8000000000000000 ≤ i ∧ i < 0x8000000000000000 := by
  have kept := (Option.filter_eq_some_iff.mp h).2
  simpa using kept

theorem toList_toString {i : Int} (h : 0 ≤ i) : (toString i).toList = Nat.toDigits 10 i.toNat := by
  obtain ⟨n, rfl⟩ := Int.eq_ofNat_of_zero_le h
  exact Nat.toList_repr

theorem signed64?_toString {i : Int} (low : 0 ≤ i) (high : i < 0x8000000000000000) :
    signed64? (toString i).toList = some i := by
  have written := toList_toString low
  obtain ⟨n, rfl⟩ := Int.eq_ofNat_of_zero_le low
  rw [Int.toNat_natCast] at written
  have sign : ∀ c ∈ Nat.toDigits 10 n, c ≠ '-' ∧ c ≠ '+' :=
    forall_mem_toDigits (p := fun c => c ≠ '-' ∧ c ≠ '+') (by decide) n
  have unsigned (mark : Char) (hm : ∀ c ∈ Nat.toDigits 10 n, c ≠ mark) (ds : List Char)
      (h : Nat.toDigits 10 n = mark :: ds) : False :=
    hm mark (h ▸ List.mem_cons_self) rfl
  rw [written, signed64?, within?, natural?_toDigits]
  · have bounds : (-0x8000000000000000 ≤ (n : Int) && (n : Int) < 0x8000000000000000) = true := by
      simp
      omega
    exact Option.filter_some_pos bounds
  · exact unsigned '-' fun c hc => (sign c hc).1
  · exact unsigned '+' fun c hc => (sign c hc).2

end NamedStores.Integer
