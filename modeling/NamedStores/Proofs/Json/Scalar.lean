/-
Strings and integers read back from the text that was written of them. A character of a string
stands as its octets, none of which ends the string or begins an escape, or it is escaped and
the reader finds its octets again. An integer of 64 bits is gathered digit by digit, and what
comes after it decides only that it ends there.
-/
import Mathlib.Tactic.IntervalCases
import NamedStores.Json.Reader
import NamedStores.Json.Writer
import NamedStores.Proofs.Text.Integer
import NamedStores.Proofs.Text.Utf8

namespace NamedStores

namespace Json

theorem asChar_ascii {c : Char} (hc : c.toNat < 0x80) : asChar (.ofNat c.toNat) = c := by
  rw [asChar, Utf8.toNat_octet (by omega), Char.ofNat_toNat]

/-! ## Strings -/

/-- An octet that stands for itself in a string. -/
def Stands (b : UInt8) : Prop := ¬ b < 0x20 ∧ asChar b ≠ '"' ∧ asChar b ≠ '\\'

theorem asChar_ne {b : UInt8} {c : Char} (h : b.toNat ≠ c.toNat) : asChar b ≠ c := by
  intro same
  have bound := b.toNat_lt
  rw [← same, asChar, Utf8.toNat_char (by omega)] at h
  exact h rfl

theorem stands_of_high {n : Nat} (low : 0x80 ≤ n) (high : n < 0x100) : Stands (.ofNat n) := by
  have octet := Utf8.toNat_octet high
  refine ⟨?_, asChar_ne ?_, asChar_ne ?_⟩
  · rw [UInt8.lt_iff_toNat_lt, octet]
    exact Nat.not_lt.2 (Nat.le_trans (by decide) low)
  · rw [octet]
    exact Nat.ne_of_gt (Nat.lt_of_lt_of_le (by decide) low)
  · rw [octet]
    exact Nat.ne_of_gt (Nat.lt_of_lt_of_le (by decide) low)

/-- A character without an escape stands as its octets. -/
theorem octets_stand {c : Char} (printable : ¬ c.toNat < 0x20) (quote : c ≠ '"')
    (backslash : c ≠ '\\') : ∀ b ∈ Utf8.octets c, Stands b := by
  have bound := Utf8.toNat_lt c
  intro b hb
  by_cases ascii : c.toNat < 0x80
  · rw [Utf8.octets_ascii ascii, List.mem_singleton] at hb
    subst hb
    rw [Stands, asChar_ascii ascii, UInt8.lt_iff_toNat_lt, Utf8.toNat_octet (by omega)]
    exact ⟨printable, quote, backslash⟩
  · unfold Utf8.octets at hb
    dsimp only at hb
    split at hb
    · contradiction
    split at hb
    · simp only [List.mem_cons, List.not_mem_nil, or_false] at hb
      rcases hb with rfl | rfl <;> exact stands_of_high (by omega) (by omega)
    split at hb
    · simp only [List.mem_cons, List.not_mem_nil, or_false] at hb
      rcases hb with rfl | rfl | rfl <;> exact stands_of_high (by omega) (by omega)
    · simp only [List.mem_cons, List.not_mem_nil, or_false] at hb
      rcases hb with rfl | rfl | rfl | rfl <;> exact stands_of_high (by omega) (by omega)

theorem stringOctets_stands {xs : Bytes} (stand : ∀ b ∈ xs, Stands b) (fuel : Nat)
    (seen bs : Bytes) : stringOctets (xs.length + fuel) seen (xs ++ bs) =
      stringOctets fuel (xs.reverse ++ seen) bs := by
  induction xs generalizing seen with
  | nil => rw [List.length_nil, Nat.zero_add, List.nil_append, List.reverse_nil, List.nil_append]
  | cons b xs ih =>
    obtain ⟨printable, quote, backslash⟩ := stand b List.mem_cons_self
    rw [List.length_cons, Nat.succ_add, List.cons_append, stringOctets, if_neg quote,
      if_neg backslash, if_neg printable, ih fun b hb => stand b (List.mem_cons_of_mem _ hb),
      List.reverse_cons, List.append_assoc, List.singleton_append]

theorem value?_digit {n : Nat} (hn : n < 16) : Hex.value? (Hex.digit n) = some n := by
  have all : ∀ n < 16, Hex.value? (Hex.digit n) = some n := by decide
  exact all n hn

/-- The octet of a hex digit. -/
theorem encode_digit {n : Nat} (hn : n < 16) :
    ∃ b, Utf8.octets (Hex.digit n) = [b] ∧ asChar b = Hex.digit n := by
  have ascii : ∀ n < 16, (Hex.digit n).toNat < 0x80 := by decide
  exact ⟨_, Utf8.octets_ascii (ascii n hn), asChar_ascii (ascii n hn)⟩

theorem unescape_control {c : Char} (hc : c.toNat < 0x20) (bs : Bytes) :
    unescape (Utf8.encode ['u', '0', '0', Hex.digit (c.toNat / 16), Hex.digit (c.toNat % 16)] ++
      bs) = .ok (Utf8.octets c, bs) := by
  obtain ⟨high, ho, ha⟩ := encode_digit (n := c.toNat / 16) (by omega)
  obtain ⟨low, ho', ha'⟩ := encode_digit (n := c.toNat % 16) (by omega)
  have written : Utf8.encode
      ['u', '0', '0', Hex.digit (c.toNat / 16), Hex.digit (c.toNat % 16)] ++ bs =
        0x75 :: 0x30 :: 0x30 :: high :: low :: bs := by
    simp only [Utf8.encode, List.flatMap_cons, List.flatMap_nil, ho, ho']
    rfl
  have zero : Hex.value? (asChar 0x30) = some 0 := by decide
  have read : hexEscape (0x30 :: 0x30 :: high :: low :: bs) = .ok (c.toNat, bs) := by
    simp only [hexEscape, ha, ha', zero, value?_digit (show c.toNat / 16 < 16 by omega),
      value?_digit (show c.toNat % 16 < 16 by omega)]
    rw [show 0 * 4096 + 0 * 256 + c.toNat / 16 * 16 + c.toNat % 16 = c.toNat by omega]
  have long : shortEscape? 0x75 = none := by decide
  have mark : asChar 0x75 = 'u' := by decide
  rw [written, unescape, long]
  simp only [mark, if_true, unicodeEscape, read]
  rw [if_neg (by omega), if_neg (by omega), Char.ofNat_toNat]

/-- A character stands as itself, or it has an escape that gives its octets. -/
theorem escape_cases (c : Char) :
    (escape c = [c] ∧ ∀ b ∈ Utf8.octets c, Stands b) ∨
      ∃ t, escape c = '\\' :: t ∧ ∀ bs, unescape (Utf8.encode t ++ bs) = .ok (Utf8.octets c, bs) := by
  have is {n : Nat} (h : c.toNat = n) : c = Char.ofNat n := by rw [← h, Char.ofNat_toNat]
  unfold escape
  dsimp only
  split
  · next quote => exact .inr ⟨['"'], rfl, fun bs => by rw [quote]; rfl⟩
  next quote =>
  split
  · next backslash => exact .inr ⟨['\\'], rfl, fun bs => by rw [backslash]; rfl⟩
  next backslash =>
  split
  · next h => exact .inr ⟨['b'], rfl, fun bs => by rw [is h]; rfl⟩
  split
  · next h => exact .inr ⟨['t'], rfl, fun bs => by rw [is h]; rfl⟩
  split
  · next h => exact .inr ⟨['n'], rfl, fun bs => by rw [is h]; rfl⟩
  split
  · next h => exact .inr ⟨['f'], rfl, fun bs => by rw [is h]; rfl⟩
  split
  · next h => exact .inr ⟨['r'], rfl, fun bs => by rw [is h]; rfl⟩
  split
  · next control => exact .inr ⟨_, rfl, unescape_control control⟩
  · next printable => exact .inl ⟨rfl, octets_stand printable quote backslash⟩

theorem stringOctets_escape (cs : List Char) (rest : Bytes) :
    ∀ (fuel : Nat) (seen : Bytes), (Utf8.encode (cs.flatMap escape)).length < fuel →
      stringOctets fuel seen (Utf8.encode (cs.flatMap escape) ++ 0x22 :: rest) =
        .ok (seen.reverse ++ Utf8.encode cs, rest) := by
  induction cs with
  | nil =>
    intro fuel seen enough
    obtain ⟨fuel, rfl⟩ := Nat.exists_eq_add_of_lt enough
    have closing : asChar 0x22 = '"' := by decide
    simp [Utf8.encode, stringOctets, closing]
  | cons c cs ih =>
    intro fuel seen enough
    rw [List.flatMap_cons, Utf8.encode_append, List.length_append] at enough
    rw [List.flatMap_cons, Utf8.encode_append, List.append_assoc]
    rcases escape_cases c with ⟨plain, stand⟩ | ⟨t, escaped, unescaped⟩
    · have once : Utf8.encode (escape c) = Utf8.octets c := by
        rw [plain]
        exact List.flatMap_singleton _ c
      rw [once] at enough ⊢
      obtain ⟨fuel, rfl⟩ := Nat.exists_eq_add_of_le
        (Nat.le_of_lt (Nat.lt_of_le_of_lt (Nat.le_add_right _ _) enough))
      rw [stringOctets_stands stand, ih fuel _ (by omega), Utf8.encode_cons, List.reverse_append,
        List.reverse_reverse, List.append_assoc]
    · have first : Utf8.encode (escape c) = 0x5C :: Utf8.encode t := by
        rw [escaped]
        rfl
      rw [first, List.length_cons] at enough
      rw [first, List.cons_append]
      obtain ⟨fuel, rfl⟩ : ∃ k, fuel = k + 1 := ⟨fuel - 1, by omega⟩
      have open_quote : asChar 0x5C ≠ '"' := by decide
      have backslash : asChar 0x5C = '\\' := by decide
      rw [stringOctets, if_neg open_quote, if_pos backslash, unescaped]
      dsimp only
      rw [ih fuel _ (by omega), Utf8.encode_cons, List.reverse_append, List.reverse_reverse,
        List.append_assoc]

/-- A string is read back from its text, after the opening quote. -/
theorem readString_escape (s : String) (rest : Bytes) :
    readString (Utf8.encode (s.toList.flatMap escape) ++ 0x22 :: rest) = .ok (s, rest) := by
  have enough : (Utf8.encode (s.toList.flatMap escape)).length <
      (Utf8.encode (s.toList.flatMap escape) ++ 0x22 :: rest).length + 1 := by
    rw [List.length_append]
    omega
  rw [readString, stringOctets_escape s.toList rest _ [] enough]
  have text : Utf8.toString? (Utf8.encode s.toList) = some s := Utf8.toString?_ofString s
  simp only [List.reverse_nil, List.nil_append, text]

/-! ## Integers -/

/-- What may follow a number without being read as part of it. -/
def EndsNumber (rest : Bytes) : Prop :=
  ∀ b ∈ rest.head?, isDigit b = false ∧ asChar b ≠ '.' ∧ Number.isExponentMark b = false

theorem endsNumber_nil : EndsNumber [] := nofun

theorem endsNumber_cons {b : UInt8}
    (hb : isDigit b = false ∧ asChar b ≠ '.' ∧ Number.isExponentMark b = false) (bs : Bytes) :
    EndsNumber (b :: bs) := by
  rintro c ⟨⟩
  exact hb

namespace Number

theorem afterWhole_ends {rest : Bytes} (ends : EndsNumber rest) (negative : Bool) (n : Nat) :
    afterWhole negative n 0 rest = .ok (integer negative n, rest) := by
  cases rest with
  | nil => rfl
  | cons b rest =>
    obtain ⟨-, point, mark⟩ := ends b rfl
    simp only [afterWhole, if_neg point, mark, Bool.false_eq_true, if_false, if_true]

/-- The octet of a decimal digit. -/
theorem octet_digit {c : Char} (hc : Integer.isDigit c = true) :
    Utf8.octets c = [.ofNat c.toNat] ∧ asChar (.ofNat c.toNat) = c ∧
      isDigit (.ofNat c.toNat) = true ∧ digit (.ofNat c.toNat) = c.toNat - 0x30 := by
  simp only [Integer.isDigit, Bool.and_eq_true, decide_eq_true_eq, Char.le_def,
    UInt32.le_iff_toNat_le] at hc
  change 0x30 ≤ c.toNat ∧ c.toNat ≤ 0x39 at hc
  have octet : (UInt8.ofNat c.toNat).toNat = c.toNat := Utf8.toNat_octet (by omega)
  refine ⟨Utf8.octets_ascii (by omega), asChar_ascii (by omega), ?_, by rw [digit, octet]⟩
  simp only [isDigit, Bool.and_eq_true, decide_eq_true_eq, UInt8.le_iff_toNat_le, octet]
  exact hc

theorem encode_digits {cs : List Char} (digits : ∀ c ∈ cs, Integer.isDigit c = true) :
    Utf8.encode cs = cs.map fun c => .ofNat c.toNat := by
  induction cs with
  | nil => rfl
  | cons c cs ih =>
    have front := (octet_digit (digits c List.mem_cons_self)).1
    rw [List.map_cons, ← ih fun d hd => digits d (List.mem_cons_of_mem _ hd), Utf8.encode_cons,
      front, List.singleton_append]

theorem spanDigits_digits {cs : List Char} (digits : ∀ c ∈ cs, Integer.isDigit c = true)
    {rest : Bytes} (stop : ∀ b ∈ rest.head?, isDigit b = false) :
    spanDigits (Utf8.encode cs ++ rest) = (cs.map fun c => c.toNat - 0x30, rest) := by
  have all : ∀ b ∈ Utf8.encode cs, isDigit b = true := by
    rw [encode_digits digits]
    intro b hb
    obtain ⟨c, hc, rfl⟩ := List.mem_map.1 hb
    exact (octet_digit (digits c hc)).2.2.1
  have stop : rest.takeWhile isDigit = [] ∧ rest.dropWhile isDigit = rest := by
    cases rest with
    | nil => exact ⟨rfl, rfl⟩
    | cons b rest =>
      have other := stop b rfl
      exact ⟨List.takeWhile_cons_of_neg (by simp [other]),
        List.dropWhile_cons_of_neg (by simp [other])⟩
  rw [spanDigits, List.takeWhile_append_of_pos all, List.dropWhile_append_of_pos all, stop.1,
    stop.2, List.append_nil, encode_digits digits, List.map_map]
  refine Prod.ext (List.map_congr_left fun c hc => ?_) rfl
  exact (octet_digit (digits c hc)).2.2.2

theorem foldl_grows (ds : List Nat) (sig : Nat) : sig ≤ ds.foldl (fun n d => n * 10 + d) sig := by
  induction ds generalizing sig with
  | nil => exact Nat.le_refl _
  | cons d ds ih => exact Nat.le_trans (by omega) (ih (sig * 10 + d))

/-- A value that fits is gathered to its last digit. -/
theorem gatherWhole_fits (ds : List Nat) : ∀ {sig n : Nat},
    ds.foldl (fun n d => n * 10 + d) sig = n → n < 0x10000000000000000 →
      gatherWhole sig ds = (n, 0) := by
  induction ds with
  | nil =>
    rintro sig n rfl -
    rfl
  | cons d ds ih =>
    intro sig n total bound
    rw [List.foldl_cons] at total
    have fit : fits sig d = true := by
      have low := foldl_grows ds (sig * 10 + d)
      simp only [fits, decide_eq_true_eq]
      omega
    rw [gatherWhole, if_pos fit, ih total bound]

/-- Only zero begins with a zero, and ends with it. -/
theorem toDigits_head (n : Nat) :
    ∃ c cs, Nat.toDigits 10 n = c :: cs ∧ (c = '0' → cs = [] ∧ n = 0) := by
  induction n using Nat.base_induction 10 (by decide) with
  | single m hm =>
    have nonzero : ∀ m < 10, Nat.digitChar m = '0' → m = 0 := by decide
    exact ⟨_, [], Nat.toDigits_of_lt_base hm, fun zero => ⟨rfl, nonzero m hm zero⟩⟩
  | digit m k hk hm ih =>
    obtain ⟨c, cs, front, head⟩ := ih
    refine ⟨c, cs ++ Nat.toDigits 10 k, ?_, fun zero => ?_⟩
    · rw [← Nat.toDigits_append_toDigits (by decide) hm hk, front, List.cons_append]
    · have none := (head zero).2
      omega

/-- The value of the digits that follow others. -/
theorem digitsValue_append (cs ds : List Char) : Integer.digitsValue (cs ++ ds) =
    (ds.map fun c => c.toNat - 0x30).foldl (fun n d => n * 10 + d) (Integer.digitsValue cs) := by
  rw [Integer.digitsValue, List.foldl_append, List.foldl_map]
  rfl

/-- Digits before the point, without a zero in front, are gathered to their value. -/
theorem read_whole (negative : Bool) {cs : List Char} (some : cs ≠ [])
    (digits : ∀ c ∈ cs, Integer.isDigit c = true) (front : ∀ ds, cs = '0' :: ds → ds = [])
    (bound : Integer.digitsValue cs < 0x10000000000000000) {rest : Bytes}
    (stop : ∀ b ∈ rest.head?, isDigit b = false) :
    read negative (Utf8.encode cs ++ rest) =
      afterWhole negative (Integer.digitsValue cs) 0 rest := by
  obtain ⟨c, cs, rfl⟩ := List.exists_cons_of_ne_nil some
  obtain ⟨octet, char, isdigit, value⟩ := octet_digit (digits c List.mem_cons_self)
  have later : ∀ d ∈ cs, Integer.isDigit d = true := fun d hd =>
    digits d (List.mem_cons_of_mem _ hd)
  rw [Utf8.encode_cons, octet, List.singleton_append, List.cons_append]
  unfold read
  dsimp only
  rw [char]
  split
  · next zero =>
    obtain rfl := zero
    obtain rfl := front cs rfl
    cases rest with
    | nil => rfl
    | cons b rest =>
      have other := stop b rfl
      simp only [Utf8.encode, List.flatMap_nil, List.nil_append, other, Bool.false_eq_true,
        if_false]
      rfl
  · have gathered : gatherWhole (c.toNat - 0x30) (cs.map fun c => c.toNat - 0x30) =
        (Integer.digitsValue (c :: cs), 0) := by
      refine gatherWhole_fits _ ?_ bound
      have first : Integer.digitsValue [c] = c.toNat - 0x30 := by
        rw [Integer.digitsValue, List.foldl_cons, Nat.zero_mul, Nat.zero_add, List.foldl_nil]
      rw [← first, ← digitsValue_append, List.singleton_append]
    rw [spanDigits_digits later stop, value]
    dsimp only
    rw [gathered]

/-- The digits of a number, which has no zero in front. -/
theorem toDigits_whole (n : Nat) : Nat.toDigits 10 n ≠ [] ∧
    (∀ c ∈ Nat.toDigits 10 n, Integer.isDigit c = true) ∧
    ∀ ds, Nat.toDigits 10 n = '0' :: ds → ds = [] := by
  refine ⟨Nat.toDigits_ne_nil,
    Integer.forall_mem_toDigits (p := fun c => Integer.isDigit c = true) (by decide) n, ?_⟩
  intro ds written
  obtain ⟨c, cs, split, head⟩ := toDigits_head n
  cases split.symm.trans written
  exact (head rfl).1

/-- An integer of 64 bits is read back from its digits. -/
theorem read_toDigits (negative : Bool) {n : Nat} (bound : n < 0x10000000000000000)
    {rest : Bytes} (ends : EndsNumber rest) :
    read negative (Utf8.encode (Nat.toDigits 10 n) ++ rest) = .ok (integer negative n, rest) := by
  obtain ⟨some, digits, front⟩ := toDigits_whole n
  rw [read_whole negative some digits front (by rwa [Integer.digitsValue_toDigits])
    fun b hb => (ends b hb).1, Integer.digitsValue_toDigits, afterWhole_ends ends]

end Number

theorem exists_of_isDigit {b : UInt8} (hb : isDigit b = true) : ∃ n < 10, b = .ofNat (0x30 + n) := by
  simp only [isDigit, Bool.and_eq_true, decide_eq_true_eq, UInt8.le_iff_toNat_le] at hb
  change 0x30 ≤ b.toNat ∧ b.toNat ≤ 0x39 at hb
  refine ⟨b.toNat - 0x30, by omega, Utf8.eq_octet (by omega)⟩

/-- What begins with a digit is read as a number. -/
theorem scalar_digit {b : UInt8} (hb : isDigit b = true) (bs : Bytes) :
    scalar b bs = Number.read false (b :: bs) := by
  obtain ⟨n, hn, rfl⟩ := exists_of_isDigit hb
  interval_cases n <;> rfl

/-- The first octet of a value that is no container. -/
structure OpensScalar (b : UInt8) : Prop where
  visible : isBlank b = false
  notList : asChar b ≠ '['
  notObject : asChar b ≠ '\x7b'
  notListEnd : asChar b ≠ ']'

theorem opensScalar_digit {b : UInt8} (hb : isDigit b = true) : OpensScalar b := by
  have all : ∀ n < 10, isBlank (.ofNat (0x30 + n)) = false ∧ asChar (.ofNat (0x30 + n)) ≠ '[' ∧
      asChar (.ofNat (0x30 + n)) ≠ '\x7b' ∧ asChar (.ofNat (0x30 + n)) ≠ ']' := by decide
  obtain ⟨n, hn, rfl⟩ := exists_of_isDigit hb
  obtain ⟨visible, notList, notObject, notListEnd⟩ := all n hn
  exact ⟨visible, notList, notObject, notListEnd⟩

/-- An integer of 64 bits, with or without a sign, is read back from its text. -/
theorem scalar_writeInteger {n : Int} (low : -0x8000000000000000 ≤ n) (high : n < 0x10000000000000000) :
    ∃ b bs, Utf8.encode (writeInteger n) = b :: bs ∧ OpensScalar b ∧
      ∀ rest, EndsNumber rest → scalar b (bs ++ rest) = .ok (.integer n, rest) := by
  have bound : n.natAbs < 0x10000000000000000 := by omega
  rw [writeInteger]
  split
  · next negative =>
    refine ⟨0x2D, Utf8.encode (Nat.toDigits 10 n.natAbs), rfl,
      ⟨by decide, by decide, by decide, by decide⟩, fun rest ends => ?_⟩
    have sign : scalar 0x2D (Utf8.encode (Nat.toDigits 10 n.natAbs) ++ rest) =
        Number.read true (Utf8.encode (Nat.toDigits 10 n.natAbs) ++ rest) := rfl
    rw [sign, Number.read_toDigits true bound ends, Number.integer, if_pos rfl,
      if_neg (by omega), show -(n.natAbs : Int) = n by omega]
  · next positive =>
    have digits := Integer.forall_mem_toDigits (p := fun c => Integer.isDigit c = true) (by decide)
      n.natAbs
    obtain ⟨c, cs, written, -⟩ := Number.toDigits_head n.natAbs
    obtain ⟨octet, -, isdigit, -⟩ := Number.octet_digit (digits c (written ▸ List.mem_cons_self))
    have split : Utf8.encode (Nat.toDigits 10 n.natAbs) = .ofNat c.toNat :: Utf8.encode cs := by
      rw [written, Utf8.encode_cons, octet, List.singleton_append]
    refine ⟨_, _, split, opensScalar_digit isdigit, fun rest ends => ?_⟩
    rw [scalar_digit isdigit, ← List.cons_append, ← split, Number.read_toDigits false bound ends,
      Number.integer, if_neg Bool.false_ne_true, show (n.natAbs : Int) = n by omega]

end Json

end NamedStores
