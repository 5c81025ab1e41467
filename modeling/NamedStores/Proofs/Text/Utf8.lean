/-
UTF-8 read back: the octets of a character read as that character, whatever comes after them,
so both readers give back every text that was written. The strict reader takes no other octets:
what it reads as a text are the octets of that text. Texts have the order of their octets.
-/
import NamedStores.Text.Utf8

namespace NamedStores.Utf8

/-! ## Octets that read as one character -/

theorem toNat_octet {n : Nat} (h : n < 0x100) : (UInt8.ofNat n).toNat = n :=
  UInt8.toNat_ofNat_of_lt h

theorem scan_ascii {b : Nat} (hb : b < 0x80) (bs : Bytes) :
    scan none (.ofNat b :: bs) = some (Char.ofNat b) :: scan none bs := by
  have hn : (UInt8.ofNat b).toNat = b := toNat_octet (by omega)
  simp only [scan, hn, step, start]
  rw [if_pos hb]
  rfl

/-- An octet within its bounds, where more are owed, adds its bits. -/
theorem scan_owed {owed low high bits b : Nat} (hb : low ≤ b ∧ b ≤ high) (hh : high < 0x100)
    (bs : Bytes) :
    scan (some ⟨owed + 2, low, high, bits⟩) (.ofNat b :: bs) =
      scan (some ⟨owed + 1, 0x80, 0xBF, bits * 0x40 + (b - 0x80)⟩) bs := by
  have hn : (UInt8.ofNat b).toNat = b := toNat_octet (by omega)
  simp only [scan, hn, step]
  rw [if_pos hb, if_neg (by omega)]
  rfl

/-- The last octet owed completes the character. -/
theorem scan_last {low high bits b : Nat} (hb : low ≤ b ∧ b ≤ high) (hh : high < 0x100)
    (bs : Bytes) :
    scan (some ⟨1, low, high, bits⟩) (.ofNat b :: bs) =
      some (Char.ofNat (bits * 0x40 + (b - 0x80))) :: scan none bs := by
  have hn : (UInt8.ofNat b).toNat = b := toNat_octet (by omega)
  simp only [scan, hn, step]
  rw [if_pos hb, if_pos (by omega)]
  rfl

theorem scan_two {n : Nat} (low : 0x80 ≤ n) (high : n < 0x800) (bs : Bytes) :
    scan none (.ofNat (0xC0 + n / 0x40) :: .ofNat (0x80 + n % 0x40) :: bs) =
      some (Char.ofNat n) :: scan none bs := by
  have hn : (UInt8.ofNat (0xC0 + n / 0x40)).toNat = 0xC0 + n / 0x40 :=
    toNat_octet (by omega)
  have first : scan none (.ofNat (0xC0 + n / 0x40) :: .ofNat (0x80 + n % 0x40) :: bs) =
      scan (some ⟨1, 0x80, 0xBF, n / 0x40⟩) (.ofNat (0x80 + n % 0x40) :: bs) := by
    rw [scan, hn, step, start, if_neg (by omega), if_neg (by omega), if_pos (by omega)]
    simp only [Nat.add_sub_cancel_left, List.nil_append]
  rw [first, scan_last (by omega) (by decide)]
  have value : n / 0x40 * 0x40 + (0x80 + n % 0x40 - 0x80) = n := by omega
  rw [value]

theorem scan_three {n : Nat} (low : 0x800 ≤ n) (high : n < 0x10000)
    (valid : n < 0xD800 ∨ 0xDFFF < n) (bs : Bytes) :
    scan none (.ofNat (0xE0 + n / 0x1000) :: .ofNat (0x80 + n / 0x40 % 0x40) ::
      .ofNat (0x80 + n % 0x40) :: bs) = some (Char.ofNat n) :: scan none bs := by
  have hn : (UInt8.ofNat (0xE0 + n / 0x1000)).toNat = 0xE0 + n / 0x1000 :=
    toNat_octet (by omega)
  have bounds : (if 0xE0 + n / 0x1000 = 0xE0 then 0xA0 else 0x80) ≤ 0x80 + n / 0x40 % 0x40 ∧
      0x80 + n / 0x40 % 0x40 ≤ if 0xE0 + n / 0x1000 = 0xED then 0x9F else 0xBF := by
    constructor <;> split <;> omega
  have small : (if 0xE0 + n / 0x1000 = 0xED then 0x9F else 0xBF) < 0x100 := by split <;> decide
  rw [scan, hn, step, start, if_neg (by omega), if_neg (by omega), if_neg (by omega),
    if_pos (by omega)]
  simp only [Nat.add_sub_cancel_left, List.nil_append]
  rw [scan_owed bounds small, scan_last (by omega) (by decide)]
  have value : (n / 0x1000 * 0x40 + (0x80 + n / 0x40 % 0x40 - 0x80)) * 0x40 +
      (0x80 + n % 0x40 - 0x80) = n := by omega
  rw [value]

theorem scan_four {n : Nat} (low : 0x10000 ≤ n) (high : n < 0x110000) (bs : Bytes) :
    scan none (.ofNat (0xF0 + n / 0x40000) :: .ofNat (0x80 + n / 0x1000 % 0x40) ::
      .ofNat (0x80 + n / 0x40 % 0x40) :: .ofNat (0x80 + n % 0x40) :: bs) =
      some (Char.ofNat n) :: scan none bs := by
  have hn : (UInt8.ofNat (0xF0 + n / 0x40000)).toNat = 0xF0 + n / 0x40000 :=
    toNat_octet (by omega)
  have bounds : (if 0xF0 + n / 0x40000 = 0xF0 then 0x90 else 0x80) ≤ 0x80 + n / 0x1000 % 0x40 ∧
      0x80 + n / 0x1000 % 0x40 ≤ if 0xF0 + n / 0x40000 = 0xF4 then 0x8F else 0xBF := by
    constructor <;> split <;> omega
  have small : (if 0xF0 + n / 0x40000 = 0xF4 then 0x8F else 0xBF) < 0x100 := by split <;> decide
  rw [scan, hn, step, start, if_neg (by omega), if_neg (by omega), if_neg (by omega),
    if_neg (by omega), if_pos (by omega)]
  simp only [Nat.add_sub_cancel_left, List.nil_append]
  rw [scan_owed bounds small, scan_owed (by omega) (by decide), scan_last (by omega) (by decide)]
  have value : ((n / 0x40000 * 0x40 + (0x80 + n / 0x1000 % 0x40 - 0x80)) * 0x40 +
      (0x80 + n / 0x40 % 0x40 - 0x80)) * 0x40 + (0x80 + n % 0x40 - 0x80) = n := by omega
  rw [value]

/-! ## Texts -/

theorem encode_cons (c : Char) (cs : List Char) : encode (c :: cs) = octets c ++ encode cs :=
  List.flatMap_cons

theorem encode_append (cs ds : List Char) : encode (cs ++ ds) = encode cs ++ encode ds :=
  List.flatMap_append

theorem octets_ascii {c : Char} (hc : c.toNat < 0x80) : octets c = [.ofNat c.toNat] :=
  if_pos hc

theorem encode_cons_ascii {c : Char} (hc : c.toNat < 0x80) (cs : List Char) :
    encode (c :: cs) = .ofNat c.toNat :: encode cs := by
  rw [encode_cons, octets_ascii hc, List.singleton_append]

theorem toNat_lt (c : Char) : c.toNat < 0x110000 := by
  rcases c.valid with low | ⟨-, within⟩
  · exact Nat.lt_trans low (by decide)
  · exact within

theorem octets_ne_nil (c : Char) : octets c ≠ [] := by
  simp only [octets]
  split
  · exact List.cons_ne_nil _ _
  · split
    · exact List.cons_ne_nil _ _
    · split <;> exact List.cons_ne_nil _ _

theorem scan_octets (c : Char) (bs : Bytes) :
    scan none (octets c ++ bs) = some c :: scan none bs := by
  have hc : Char.ofNat c.toNat = c := Char.ofNat_toNat c
  have valid : c.toNat < 0xD800 ∨ 0xDFFF < c.toNat ∧ c.toNat < 0x110000 := c.valid
  simp only [octets]
  split
  · rename_i one
    rw [List.singleton_append, scan_ascii one, hc]
  · split
    · rename_i one two
      rw [List.cons_append, List.singleton_append, scan_two (by omega) two, hc]
    · split
      · rename_i two three
        simp only [List.cons_append, List.nil_append]
        rw [scan_three (by omega) three (by omega), hc]
      · rename_i three
        simp only [List.cons_append, List.nil_append]
        rw [scan_four (by omega) (by omega), hc]

theorem scan_encode (cs : List Char) : scan none (encode cs) = cs.map some := by
  induction cs with
  | nil => rfl
  | cons c cs ih =>
    rw [encode_cons, scan_octets, ih, List.map_cons]

theorem decode?_encode (cs : List Char) : decode? (encode cs) = some cs := by
  rw [decode?, scan_encode]
  induction cs with
  | nil => rfl
  | cons c cs ih =>
    rw [List.map_cons, List.mapM_cons, ih]
    rfl

theorem decodeLossy_encode (cs : List Char) : decodeLossy (encode cs) = cs := by
  rw [decodeLossy, scan_encode, List.map_map]
  exact List.map_id cs

theorem toString?_ofString (s : String) : toString? (ofString s) = some s := by
  rw [toString?, ofString, decode?_encode, Option.map_some, String.ofList_toList]

/-! ## Octets that read as text -/

/-- Where more octets are owed and a text is read, the next octet is within its bounds. -/
theorem scan_owed_eq {owed low high bits : Nat} {bs : Bytes} {cs : List Char}
    (h : scan (some ⟨owed + 2, low, high, bits⟩) bs = cs.map some) :
    ∃ b bs', bs = b :: bs' ∧ low ≤ b.toNat ∧ b.toNat ≤ high ∧
      scan (some ⟨owed + 1, 0x80, 0xBF, bits * 0x40 + (b.toNat - 0x80)⟩) bs' = cs.map some := by
  cases bs with
  | nil => cases cs <;> simp [scan] at h
  | cons b bs =>
    by_cases within : low ≤ b.toNat ∧ b.toNat ≤ high
    · rw [scan, step, if_pos within, if_neg (Nat.not_le.2 (Nat.lt_add_left owed (by decide)))] at h
      exact ⟨b, bs, rfl, within.1, within.2, h⟩
    · simp only [scan, step] at h
      rw [if_neg within] at h
      cases cs <;> simp at h

/-- The last octet owed is within its bounds too, and completes the first character. -/
theorem scan_last_eq {low high bits : Nat} {bs : Bytes} {cs : List Char}
    (h : scan (some ⟨1, low, high, bits⟩) bs = cs.map some) :
    ∃ b bs' cs', bs = b :: bs' ∧ low ≤ b.toNat ∧ b.toNat ≤ high ∧
      cs = Char.ofNat (bits * 0x40 + (b.toNat - 0x80)) :: cs' ∧ scan none bs' = cs'.map some := by
  cases bs with
  | nil => cases cs <;> simp [scan] at h
  | cons b bs =>
    by_cases within : low ≤ b.toNat ∧ b.toNat ≤ high
    · simp only [scan, step] at h
      rw [if_pos within, if_pos (by omega)] at h
      cases cs with
      | nil => simp at h
      | cons c cs =>
        simp only [List.singleton_append, List.map_cons, List.cons.injEq, Option.some.injEq] at h
        exact ⟨b, bs, cs, rfl, within.1, within.2, by rw [h.1], h.2⟩
    · simp only [scan, step] at h
      rw [if_neg within] at h
      cases cs <;> simp at h

theorem toNat_char {n : Nat} (h : n < 0xD800 ∨ 0xDFFF < n ∧ n < 0x110000) :
    (Char.ofNat n).toNat = n := by
  unfold Char.ofNat
  rw [dif_pos h]
  rfl

theorem eq_octet {b : UInt8} {n : Nat} (h : b.toNat = n) : b = .ofNat n := by
  rw [← h, UInt8.ofNat_toNat]

theorem octets_one {n : Nat} (h : n < 0x80) : octets (Char.ofNat n) = [.ofNat n] := by
  simp only [octets, toNat_char (n := n) (by omega)]
  rw [if_pos h]

theorem octets_two {n : Nat} (low : 0x80 ≤ n) (high : n < 0x800) :
    octets (Char.ofNat n) = [.ofNat (0xC0 + n / 0x40), .ofNat (0x80 + n % 0x40)] := by
  simp only [octets, toNat_char (n := n) (by omega)]
  rw [if_neg (by omega), if_pos high]

theorem octets_three {n : Nat} (low : 0x800 ≤ n) (high : n < 0x10000)
    (valid : n < 0xD800 ∨ 0xDFFF < n) :
    octets (Char.ofNat n) =
      [.ofNat (0xE0 + n / 0x1000), .ofNat (0x80 + n / 0x40 % 0x40), .ofNat (0x80 + n % 0x40)] := by
  simp only [octets, toNat_char (n := n) (by omega)]
  rw [if_neg (by omega), if_neg (by omega), if_pos high]

theorem octets_four {n : Nat} (low : 0x10000 ≤ n) (high : n < 0x110000) :
    octets (Char.ofNat n) =
      [.ofNat (0xF0 + n / 0x40000), .ofNat (0x80 + n / 0x1000 % 0x40),
        .ofNat (0x80 + n / 0x40 % 0x40), .ofNat (0x80 + n % 0x40)] := by
  simp only [octets, toNat_char (n := n) (by omega)]
  rw [if_neg (by omega), if_neg (by omega), if_neg (by omega)]

/-- One character was read off the front: its octets stand there. -/
theorem scan_cons_eq {b : UInt8} {bs : Bytes} {cs : List Char}
    (h : scan none (b :: bs) = cs.map some) :
    ∃ c cs' bs', cs = c :: cs' ∧ b :: bs = octets c ++ bs' ∧ scan none bs' = cs'.map some := by
  have small : b.toNat < 0x100 := b.toNat_lt
  rw [scan, step, start] at h
  by_cases one : b.toNat < 0x80
  · rw [if_pos one] at h
    cases cs with
    | nil => simp at h
    | cons c cs =>
      simp only [List.singleton_append, List.map_cons, List.cons.injEq, Option.some.injEq] at h
      refine ⟨c, cs, bs, rfl, ?_, h.2⟩
      rw [← h.1, octets_one one, ← eq_octet rfl, List.singleton_append]
  rw [if_neg one] at h
  by_cases stray : b.toNat < 0xC2
  · rw [if_pos stray] at h
    cases cs <;> simp at h
  rw [if_neg stray] at h
  by_cases two : b.toNat < 0xE0
  · rw [if_pos two] at h
    obtain ⟨b₂, bs, cs, rfl, low, high, rfl, rest⟩ := scan_last_eq h
    refine ⟨_, cs, bs, rfl, ?_, rest⟩
    generalize code : (b.toNat - 0xC0) * 0x40 + (b₂.toNat - 0x80) = n
    rw [octets_two (n := n) (by omega) (by omega), ← eq_octet (b := b) (by omega),
      ← eq_octet (b := b₂) (by omega)]
    rfl
  rw [if_neg two] at h
  by_cases three : b.toNat < 0xF0
  · rw [if_pos three] at h
    obtain ⟨b₂, bs, rfl, low₂, high₂, h⟩ := scan_owed_eq h
    obtain ⟨b₃, bs, cs, rfl, low₃, high₃, rfl, rest⟩ := scan_last_eq h
    refine ⟨_, cs, bs, rfl, ?_, rest⟩
    generalize code : ((b.toNat - 0xE0) * 0x40 + (b₂.toNat - 0x80)) * 0x40 + (b₃.toNat - 0x80) = n
    have begins : 0x80 ≤ b₂.toNat ∧ b₂.toNat ≤ 0xBF ∧ (b.toNat = 0xE0 → 0xA0 ≤ b₂.toNat) ∧
        (b.toNat = 0xED → b₂.toNat ≤ 0x9F) := by
      split at low₂ <;> split at high₂ <;> omega
    rw [octets_three (n := n) (by omega) (by omega) (by omega), ← eq_octet (b := b) (by omega),
      ← eq_octet (b := b₂) (by omega), ← eq_octet (b := b₃) (by omega)]
    rfl
  rw [if_neg three] at h
  by_cases four : b.toNat < 0xF5
  · rw [if_pos four] at h
    obtain ⟨b₂, bs, rfl, low₂, high₂, h⟩ := scan_owed_eq h
    obtain ⟨b₃, bs, rfl, low₃, high₃, h⟩ := scan_owed_eq h
    obtain ⟨b₄, bs, cs, rfl, low₄, high₄, rfl, rest⟩ := scan_last_eq h
    refine ⟨_, cs, bs, rfl, ?_, rest⟩
    generalize code : (((b.toNat - 0xF0) * 0x40 + (b₂.toNat - 0x80)) * 0x40 +
      (b₃.toNat - 0x80)) * 0x40 + (b₄.toNat - 0x80) = n
    have begins : 0x80 ≤ b₂.toNat ∧ b₂.toNat ≤ 0xBF ∧ (b.toNat = 0xF0 → 0x90 ≤ b₂.toNat) ∧
        (b.toNat = 0xF4 → b₂.toNat ≤ 0x8F) := by
      split at low₂ <;> split at high₂ <;> omega
    rw [octets_four (n := n) (by omega) (by omega), ← eq_octet (b := b) (by omega),
      ← eq_octet (b := b₂) (by omega), ← eq_octet (b := b₃) (by omega),
      ← eq_octet (b := b₄) (by omega)]
    rfl
  · rw [if_neg four] at h
    cases cs <;> simp at h

theorem eq_encode_of_scan {bs : Bytes} {cs : List Char} (h : scan none bs = cs.map some) :
    bs = encode cs := by
  induction length : bs.length using Nat.strongRecOn generalizing bs cs with
  | ind n ih =>
    cases bs with
    | nil =>
      cases cs with
      | nil => rfl
      | cons c cs => simp [scan] at h
    | cons b bs =>
      obtain ⟨c, cs, rest, rfl, written, read⟩ := scan_cons_eq h
      have shorter : rest.length < n := by
        have size := congrArg List.length written
        have nonempty := List.length_pos_iff.2 (octets_ne_nil c)
        rw [List.length_append] at size
        omega
      have split : encode (c :: cs) = octets c ++ encode cs := rfl
      rw [written, split, ← ih _ shorter read rfl]

theorem mapM_id_eq_some {seen : List (Option Char)} {cs : List Char}
    (h : seen.mapM id = some cs) : seen = cs.map some := by
  induction seen generalizing cs with
  | nil => cases h; rfl
  | cons c seen ih =>
    rw [List.mapM_cons] at h
    cases c with
    | none => cases h
    | some c =>
      cases more : seen.mapM id with
      | none => simp [more] at h
      | some ds =>
        simp only [more, id, Option.bind_eq_bind, Option.bind_some, Option.pure_def,
          Option.some.injEq] at h
        rw [← h, List.map_cons, ih more]

/-- **Octets decode to a text exactly when they are its octets.** -/
theorem decode?_eq_some {bs : Bytes} {cs : List Char} : decode? bs = some cs ↔ bs = encode cs := by
  constructor
  · intro h
    rw [decode?] at h
    exact eq_encode_of_scan (mapM_id_eq_some h)
  · rintro rfl
    exact decode?_encode cs

theorem toString?_eq_some {bs : Bytes} {s : String} :
    toString? bs = some s ↔ bs = ofString s := by
  rw [toString?, Option.map_eq_some_iff, ofString]
  constructor
  · rintro ⟨cs, read, rfl⟩
    rw [String.toList_ofList]
    exact decode?_eq_some.1 read
  · intro h
    exact ⟨s.toList, decode?_eq_some.2 h, String.ofList_toList⟩

/-! ## Order -/

/-- Of two octets the smaller decides; if they are the same, what comes after them does. -/
theorem octet_cons_lt {m n : Nat} (hn : n < 0x100) (le : m ≤ n) {xs ys : Bytes}
    (rest : m = n → xs < ys) : UInt8.ofNat m :: xs < UInt8.ofNat n :: ys := by
  rw [List.cons_lt_cons_iff]
  by_cases same : m = n
  · exact .inr ⟨by rw [same], rest same⟩
  · refine .inl (UInt8.lt_iff_toNat_lt.2 ?_)
    rw [toNat_octet (by omega), toNat_octet hn]
    omega

/-- The octets of a smaller character are smaller, whatever comes after them. -/
theorem octets_lt {c d : Char} (h : c < d) (xs ys : Bytes) : octets c ++ xs < octets d ++ ys := by
  have less : c.toNat < d.toNat := h
  have high := toNat_lt d
  simp only [octets]
  generalize c.toNat = m at less
  generalize d.toNat = n at less high
  -- A longer character begins with a greater octet; of two that are as long the first octets
  -- hold the higher bits.
  by_cases one : n < 0x80
  · rw [if_pos one, if_pos (Nat.lt_trans less one)]
    exact octet_cons_lt (by omega) (by omega) fun same => by omega
  rw [if_neg one]
  by_cases two : n < 0x800
  · rw [if_pos two]
    split
    · exact octet_cons_lt (by omega) (by omega) fun same => by omega
    · rw [if_pos (Nat.lt_trans less two)]
      exact octet_cons_lt (by omega) (by omega) fun same =>
        octet_cons_lt (by omega) (by omega) fun same => by omega
  rw [if_neg two]
  by_cases three : n < 0x10000
  · rw [if_pos three]
    split
    · exact octet_cons_lt (by omega) (by omega) fun same => by omega
    · split
      · exact octet_cons_lt (by omega) (by omega) fun same => by omega
      · rw [if_pos (Nat.lt_trans less three)]
        exact octet_cons_lt (by omega) (by omega) fun same =>
          octet_cons_lt (by omega) (by omega) fun same =>
            octet_cons_lt (by omega) (by omega) fun same => by omega
  · rw [if_neg three]
    split
    · exact octet_cons_lt (by omega) (by omega) fun same => by omega
    · split
      · exact octet_cons_lt (by omega) (by omega) fun same => by omega
      · split
        · exact octet_cons_lt (by omega) (by omega) fun same => by omega
        · exact octet_cons_lt (by omega) (by omega) fun same =>
            octet_cons_lt (by omega) (by omega) fun same =>
              octet_cons_lt (by omega) (by omega) fun same =>
                octet_cons_lt (by omega) (by omega) fun same => by omega

/-- No octets of a character begin those of another. -/
theorem octets_append_inj {c d : Char} {xs ys : Bytes} (h : octets c ++ xs = octets d ++ ys) :
    c = d ∧ xs = ys := by
  by_cases less : c < d
  · exact absurd (h ▸ octets_lt less xs ys) (List.lt_irrefl _)
  · by_cases more : d < c
    · exact absurd (h ▸ octets_lt more ys xs) (List.lt_irrefl _)
    · have code : c.toNat = d.toNat := Nat.le_antisymm (Nat.not_lt.mp more) (Nat.not_lt.mp less)
      cases Char.toNat_inj.mp code
      exact ⟨rfl, List.append_cancel_left h⟩

theorem encode_lt {cs ds : List Char} (h : cs < ds) : encode cs < encode ds := by
  induction cs generalizing ds with
  | nil =>
    cases ds with
    | nil => cases h
    | cons d ds =>
      obtain ⟨b, bs, written⟩ := List.exists_cons_of_ne_nil (octets_ne_nil d)
      have split : encode (d :: ds) = b :: (bs ++ encode ds) := by
        rw [← List.cons_append, ← written]
        rfl
      rw [split]
      exact List.nil_lt_cons b _
  | cons c cs ih =>
    cases ds with
    | nil => cases h
    | cons d ds =>
      rcases List.cons_lt_cons_iff.1 h with less | ⟨rfl, rest⟩
      · exact octets_lt less _ _
      · exact List.append_left_lt (ih rest)

/-- **Texts are ordered as their octets are.** -/
theorem ofString_lt {s t : String} (h : s < t) : ofString s < ofString t :=
  encode_lt h

end NamedStores.Utf8
