/-
Base64 read back. What is written of octets is the one text that stands for them: reading it gives
the octets, and no other text does, since a number below 64 has one character and what fills up
the last group must be zero bits.
-/
import NamedStores.Proofs.Text.Utf8
import NamedStores.Text.Base64

namespace NamedStores.Base64

/-! ## Characters -/

theorem value?_symbol {n : Nat} (h : n < 64) : value? (symbol n) = some n := by
  have all : ∀ n < 64, value? (symbol n) = some n := by decide
  exact all n h

theorem symbol_ne_pad {n : Nat} (h : n < 64) : symbol n ≠ '=' := by
  intro pad
  have read := value?_symbol h
  rw [pad] at read
  cases read

/-- The alphabet has one character for each number. -/
theorem value?_eq_some {c : Char} {n : Nat} : value? c = some n ↔ n < 64 ∧ symbol n = c := by
  constructor
  · intro h
    have at_code {m : Nat} (code : m = c.toNat) : Char.ofNat m = c := by
      rw [code, Char.ofNat_toNat]
    simp only [value?] at h
    split at h
    · cases h
      refine ⟨by omega, ?_⟩
      rw [symbol, if_pos (by omega)]
      exact at_code (by omega)
    · split at h
      · cases h
        refine ⟨by omega, ?_⟩
        rw [symbol, if_neg (by omega), if_pos (by omega)]
        exact at_code (by omega)
      · split at h
        · cases h
          refine ⟨by omega, ?_⟩
          rw [symbol, if_neg (by omega), if_neg (by omega), if_pos (by omega)]
          exact at_code (by omega)
        · split at h
          · rename_i plus
            cases h
            exact ⟨by decide, plus.symm⟩
          · split at h
            · rename_i slash
              cases h
              exact ⟨by decide, slash.symm⟩
            · cases h
  · intro h
    obtain ⟨small, rfl⟩ := h
    exact value?_symbol small

/-! ## Groups -/

/-- **Reading what was written gives the octets.** -/
theorem decode?_encode (bs : Bytes) : decode? (encode bs) = some bs := by
  induction bs using encode.induct with
  | case1 => rfl
  | case2 a =>
    have ha := a.toNat_lt
    have octet : a.toNat / 4 * 4 + a.toNat % 4 * 16 / 16 = a.toNat := by omega
    have filled : a.toNat % 4 * 16 % 16 = 0 := by omega
    rw [encode, decode?, value?_symbol (by omega), value?_symbol (by omega)]
    simp only [Option.bind_eq_bind, Option.bind_some, filled, if_true, octet, UInt8.ofNat_toNat]
  | case3 a b =>
    have ha := a.toNat_lt
    have hb := b.toNat_lt
    have first : a.toNat / 4 * 4 + (a.toNat % 4 * 16 + b.toNat / 16) / 16 = a.toNat := by omega
    have second : (a.toNat % 4 * 16 + b.toNat / 16) % 16 * 16 + b.toNat % 16 * 4 / 4 = b.toNat := by
      omega
    have filled : b.toNat % 16 * 4 % 4 = 0 := by omega
    have digit : symbol (b.toNat % 16 * 4) ≠ '=' := symbol_ne_pad (by omega)
    rw [encode, decode?, value?_symbol (by omega), value?_symbol (by omega), value?_symbol (by omega)]
    · simp only [Option.bind_eq_bind, Option.bind_some, filled, if_true, first, second,
        UInt8.ofNat_toNat]
    · exact digit
  | case4 a b c rest ih =>
    have ha := a.toNat_lt
    have hb := b.toNat_lt
    have hc := c.toNat_lt
    have first : a.toNat / 4 * 4 + (a.toNat % 4 * 16 + b.toNat / 16) / 16 = a.toNat := by omega
    have second : (a.toNat % 4 * 16 + b.toNat / 16) % 16 * 16 +
        (b.toNat % 16 * 4 + c.toNat / 64) / 4 = b.toNat := by
      omega
    have third : (b.toNat % 16 * 4 + c.toNat / 64) % 4 * 64 + c.toNat % 64 = c.toNat := by omega
    have digit : symbol (c.toNat % 64) ≠ '=' := symbol_ne_pad (by omega)
    rw [encode, decode?, value?_symbol (by omega), value?_symbol (by omega), value?_symbol (by omega),
      value?_symbol (by omega), ih]
    · simp only [Option.bind_eq_bind, Option.bind_some, first, second, third, UInt8.ofNat_toNat,
        Option.pure_def]
    · intro _ last _
      exact digit last
    · intro last _
      exact digit last

/-- **And no other text is read as these octets.** -/
theorem decode?_eq_some_iff {cs : List Char} {bs : Bytes} :
    decode? cs = some bs ↔ cs = encode bs := by
  constructor
  · intro h
    fun_induction decode? cs generalizing bs with
    | case1 =>
      cases h
      rfl
    | case2 p q =>
      simp only [Option.bind_eq_bind, Option.bind_eq_some_iff, value?_eq_some] at h
      obtain ⟨k, ⟨hk, rfl⟩, l, ⟨hl, rfl⟩, read⟩ := h
      split at read
      · cases read
        have first : (k * 4 + l / 16) / 4 = k := by omega
        have second : (k * 4 + l / 16) % 4 * 16 = l := by omega
        rw [encode, Utf8.toNat_octet (by omega), first, second]
      · cases read
    | case3 p q r =>
      simp only [Option.bind_eq_bind, Option.bind_eq_some_iff, value?_eq_some] at h
      obtain ⟨k, ⟨hk, rfl⟩, l, ⟨hl, rfl⟩, m, ⟨hm, rfl⟩, read⟩ := h
      split at read
      · cases read
        have first : (k * 4 + l / 16) / 4 = k := by omega
        have second : (k * 4 + l / 16) % 4 * 16 + (l % 16 * 16 + m / 4) / 16 = l := by omega
        have third : (l % 16 * 16 + m / 4) % 16 * 4 = m := by omega
        rw [encode, Utf8.toNat_octet (by omega), Utf8.toNat_octet (by omega), first, second, third]
      · cases read
    | case4 p q r s cs _ _ ih =>
      simp only [Option.bind_eq_bind, Option.bind_eq_some_iff, value?_eq_some, Option.pure_def] at h
      obtain ⟨k, ⟨hk, rfl⟩, l, ⟨hl, rfl⟩, m, ⟨hm, rfl⟩, n, ⟨hn, rfl⟩, rest, more, read⟩ := h
      cases read
      have first : (k * 4 + l / 16) / 4 = k := by omega
      have second : (k * 4 + l / 16) % 4 * 16 + (l % 16 * 16 + m / 4) / 16 = l := by omega
      have third : (l % 16 * 16 + m / 4) % 16 * 4 + (m % 4 * 64 + n) / 64 = m := by omega
      have fourth : (m % 4 * 64 + n) % 64 = n := by omega
      rw [encode, Utf8.toNat_octet (by omega), Utf8.toNat_octet (by omega),
        Utf8.toNat_octet (by omega), first, second, third, fourth, ← ih more]
    | case5 => cases h
  · intro written
    rw [written]
    exact decode?_encode bs

end NamedStores.Base64
