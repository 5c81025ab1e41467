/-
Percent encoding, settled. What has been encoded for a place holds no character that the place
does not admit, because `%` and the digits of an octet stand everywhere; so encoding it once
more changes nothing. Octets written with `%` read back as those octets.

For the same reason no place encodes `%` itself. An escape that stands in a text is still one
in the encoded text, so what is read back is what the text itself decodes to: the text when no
escape is in it, and something shorter when there is one.
-/
import NamedStores.Proofs.Text.Utf8
import NamedStores.Text.Percent

namespace NamedStores.Percent

/-! ## The characters of an octet -/

/-- `%` and the upper-case hex digits. -/
def IsOctetChar (c : Char) : Prop :=
  c = '%' ∨ ∃ n < 16, c = Hex.upperDigit n

theorem value?_upperDigit {n : Nat} (hn : n < 16) : Hex.value? (Hex.upperDigit n) = some n := by
  have all : ∀ n < 16, Hex.value? (Hex.upperDigit n) = some n := by decide
  exact all n hn

/-- What is so of `%` and of each digit is so of every character of an octet. -/
theorem IsOctetChar.all {p : Char → Bool} {c : Char} (h : IsOctetChar c)
    (sign : p '%' = true) (digits : ∀ n < 16, p (Hex.upperDigit n) = true) : p c = true := by
  rcases h with rfl | ⟨n, hn, rfl⟩
  · exact sign
  · exact digits n hn

theorem isOctetChar_of_mem_octet {c : Char} {b : UInt8} (h : c ∈ octet b) : IsOctetChar c := by
  have small : b.toNat < 256 := b.toNat_lt
  simp only [octet, List.mem_cons, List.not_mem_nil, or_false] at h
  rcases h with rfl | rfl | rfl
  · exact .inl rfl
  · exact .inr ⟨b.toNat / 16, by omega, rfl⟩
  · exact .inr ⟨b.toNat % 16, by omega, rfl⟩

/-- A character of an encoded text stood in the text, or writes an octet. -/
theorem mem_encode {special : Char → Bool} {cs : List Char} {c : Char}
    (h : c ∈ encode special cs) : (c ∈ cs ∧ special c = false) ∨ IsOctetChar c := by
  simp only [encode, List.mem_flatMap] at h
  obtain ⟨d, hd, hc⟩ := h
  split at hc
  · obtain ⟨b, -, hb⟩ := List.mem_flatMap.mp hc
    exact .inr (isOctetChar_of_mem_octet hb)
  · rename_i plain
    rw [List.mem_singleton.mp hc]
    exact .inl ⟨hd, by simpa using plain⟩

/-! ## Settled text -/

/-- Text in which nothing is left to encode. -/
def Settled (special : Char → Bool) (cs : List Char) : Prop :=
  ∀ c ∈ cs, special c = false

/-- Places in which octets can be written. -/
def Admits (special : Char → Bool) : Prop :=
  special '%' = false ∧ ∀ n < 16, special (Hex.upperDigit n) = false

theorem isControl_admits : Admits isControl := ⟨by decide, by decide⟩

theorem isQuery_admits : Admits isQuery := ⟨by decide, by decide⟩

theorem isFragment_admits : Admits isFragment := ⟨by decide, by decide⟩

theorem isPath_admits : Admits isPath := ⟨by decide, by decide⟩

theorem isUserInfo_admits : Admits isUserInfo := ⟨by decide, by decide⟩

theorem encode_settled {special : Char → Bool} (h : Admits special) (cs : List Char) :
    Settled special (encode special cs) := by
  intro c hc
  rcases mem_encode hc with ⟨-, plain⟩ | written
  · exact plain
  · have stays := written.all (p := fun c => !special c) (by simp [h.1])
      (fun n hn => by simp [h.2 n hn])
    simpa using stays

theorem Settled.encode_eq {special : Char → Bool} {cs : List Char} (h : Settled special cs) :
    encode special cs = cs := by
  induction cs with
  | nil => rfl
  | cons c cs ih =>
    have rest : encode special cs = cs := ih fun d hd => h d (List.mem_cons_of_mem c hd)
    have split : encode special (c :: cs) =
        (if special c then (Utf8.octets c).flatMap octet else [c]) ++ encode special cs := rfl
    rw [split, rest, h c List.mem_cons_self]
    rfl

theorem encode_eq_nil {special : Char → Bool} {cs : List Char} :
    encode special cs = [] ↔ cs = [] := by
  constructor
  · intro h
    cases cs with
    | nil => rfl
    | cons c cs =>
      obtain ⟨b, bs, hb⟩ := List.exists_cons_of_ne_nil (Utf8.octets_ne_nil c)
      have first := (List.flatMap_eq_nil_iff.mp h) c List.mem_cons_self
      split at first
      · rw [hb, List.flatMap_cons] at first
        simp [octet] at first
      · simp at first
  · rintro rfl
    rfl

/-! ## Decoding -/

theorem decode_octet (b : UInt8) (cs : List Char) : decode (octet b ++ cs) = b :: decode cs := by
  have small : b.toNat < 256 := b.toNat_lt
  have value : b.toNat / 16 * 16 + b.toNat % 16 = b.toNat := by omega
  have high : Hex.value? (Hex.upperDigit (b.toNat / 16)) = some (b.toNat / 16) :=
    value?_upperDigit (by omega)
  have low : Hex.value? (Hex.upperDigit (b.toNat % 16)) = some (b.toNat % 16) :=
    value?_upperDigit (by omega)
  simp only [octet, List.cons_append, List.nil_append, decode, high, low, value]
  rw [UInt8.ofNat_toNat]

theorem decode_octets (bs : Bytes) (cs : List Char) :
    decode (bs.flatMap octet ++ cs) = bs ++ decode cs := by
  induction bs with
  | nil => rfl
  | cons b bs ih => rw [List.flatMap_cons, List.append_assoc, decode_octet, ih, List.cons_append]

theorem decode_plain {c : Char} (hc : c ≠ '%') (cs : List Char) :
    decode (c :: cs) = Utf8.octets c ++ decode cs := by
  rw [decode]
  intro h l rest first
  exact absurd first hc

/-! ## Escapes -/

def IsHexDigit (c : Char) : Prop := (Hex.value? c).isSome = true

/-- Two hex digits stand at the front, as behind the `%` of an escape. -/
def BeginsWithDigits (cs : List Char) : Prop :=
  ∃ h l rest, cs = h :: l :: rest ∧ IsHexDigit h ∧ IsHexDigit l

/-- Somewhere in the text `%` stands before two hex digits. -/
def Escaped (cs : List Char) : Prop :=
  ∃ before after, cs = before ++ '%' :: after ∧ BeginsWithDigits after

theorem not_escaped_nil : ¬ Escaped [] := by
  rintro ⟨before, after, parts, -⟩
  cases before <;> cases parts

theorem escaped_cons {c : Char} {cs : List Char} :
    Escaped (c :: cs) ↔ (c = '%' ∧ BeginsWithDigits cs) ∨ Escaped cs := by
  constructor
  · rintro ⟨before, after, parts, digits⟩
    cases before with
    | nil =>
      cases parts
      exact .inl ⟨rfl, digits⟩
    | cons d before =>
      cases parts
      exact .inr ⟨before, after, rfl, digits⟩
  · rintro (⟨rfl, digits⟩ | ⟨before, after, rfl, digits⟩)
    · exact ⟨[], cs, rfl, digits⟩
    · exact ⟨c :: before, after, rfl, digits⟩

theorem isHexDigit_of_value? {c : Char} {n : Nat} (h : Hex.value? c = some n) : IsHexDigit c := by
  rw [IsHexDigit, h]
  rfl

theorem not_isHexDigit_sign : ¬ IsHexDigit '%' := by
  rw [IsHexDigit]
  decide

/-- An escape stands for one octet. -/
theorem decode_escape {h l : Char} (high : IsHexDigit h) (low : IsHexDigit l) :
    ∃ b, ∀ cs, decode ('%' :: h :: l :: cs) = b :: decode cs := by
  obtain ⟨m, hm⟩ := Option.isSome_iff_exists.1 high
  obtain ⟨n, hn⟩ := Option.isSome_iff_exists.1 low
  exact ⟨.ofNat (m * 16 + n), fun cs => by simp only [decode, hm, hn]⟩

/-- A `%` that begins no escape stands for itself. -/
theorem decode_sign {cs : List Char} (digits : ¬ BeginsWithDigits cs) :
    decode ('%' :: cs) = Utf8.octets '%' ++ decode cs := by
  rcases cs with - | ⟨h, - | ⟨l, cs⟩⟩
  · rfl
  · rfl
  · rw [decode]
    split
    · rename_i high low hm hn
      exact absurd ⟨h, l, cs, rfl, isHexDigit_of_value? hm, isHexDigit_of_value? hn⟩ digits
    · rfl

/-- A text decodes by escapes, each to its octet, and by characters, each to its own octets. -/
theorem decode_cases (c : Char) (cs : List Char) :
    (c = '%' ∧ ∃ h l rest b, cs = h :: l :: rest ∧ IsHexDigit h ∧ IsHexDigit l ∧
      ∀ more, decode (c :: h :: l :: more) = b :: decode more) ∨
    (¬(c = '%' ∧ BeginsWithDigits cs) ∧ decode (c :: cs) = Utf8.octets c ++ decode cs) := by
  by_cases sign : c = '%'
  · subst sign
    by_cases digits : BeginsWithDigits cs
    · obtain ⟨h, l, rest, rfl, high, low⟩ := digits
      obtain ⟨b, octet⟩ := decode_escape high low
      exact .inl ⟨rfl, h, l, rest, b, rfl, high, low, octet⟩
    · exact .inr ⟨fun escape => digits escape.2, decode_sign digits⟩
  · exact .inr ⟨fun escape => sign escape.1, decode_plain sign cs⟩

theorem decode_eq_nil {cs : List Char} : decode cs = [] ↔ cs = [] := by
  constructor
  · intro h
    cases cs with
    | nil => rfl
    | cons c cs =>
      rcases decode_cases c cs with ⟨rfl, a, b, rest, octet, rfl, -, -, read⟩ | ⟨-, read⟩
      · rw [read] at h
        cases h
      · rw [read] at h
        exact absurd (List.append_eq_nil_iff.mp h).1 (Utf8.octets_ne_nil c)
  · rintro rfl
    rfl

/-! ### Encoding keeps escapes -/

/-- Places in which escapes stay as they are. -/
def Keeps (special : Char → Bool) : Prop :=
  special '%' = false ∧ ∀ c, IsHexDigit c → special c = false

theorem encode_cons (special : Char → Bool) (c : Char) (cs : List Char) :
    encode special (c :: cs) =
      (if special c then (Utf8.octets c).flatMap octet else [c]) ++ encode special cs := rfl

theorem encode_plain {special : Char → Bool} {c : Char} (h : special c = false) (cs : List Char) :
    encode special (c :: cs) = c :: encode special cs := by
  rw [encode_cons, h]
  rfl

theorem encode_special {special : Char → Bool} {c : Char} (h : special c = true) (cs : List Char) :
    encode special (c :: cs) = (Utf8.octets c).flatMap octet ++ encode special cs := by
  rw [encode_cons, if_pos h]

/-- A digit that stands first in an encoded text stood first in the text: an octet begins
with `%`. -/
theorem eq_of_encode_digit {special : Char → Bool} {c d : Char} {cs ds : List Char}
    (written : encode special (c :: cs) = d :: ds) (digit : IsHexDigit d) :
    c = d ∧ encode special cs = ds := by
  cases plain : special c with
  | false =>
    rw [encode_plain plain] at written
    exact List.cons.inj written
  | true =>
    obtain ⟨b, bs, octets⟩ := List.exists_cons_of_ne_nil (Utf8.octets_ne_nil c)
    rw [encode_special plain, octets, List.flatMap_cons] at written
    have sign : '%' = d := (List.cons.inj written).1
    exact absurd (sign ▸ digit) not_isHexDigit_sign

theorem beginsWithDigits_of_encode {special : Char → Bool} {cs : List Char}
    (h : BeginsWithDigits (encode special cs)) : BeginsWithDigits cs := by
  obtain ⟨high, low, rest, written, isHigh, isLow⟩ := h
  cases cs with
  | nil => cases written
  | cons c cs =>
    obtain ⟨rfl, second⟩ := eq_of_encode_digit written isHigh
    cases cs with
    | nil => cases second
    | cons d cs =>
      obtain ⟨rfl, -⟩ := eq_of_encode_digit second isLow
      exact ⟨c, d, cs, rfl, isHigh, isLow⟩

/-- **Encoding changes nothing of what a text decodes to.** -/
theorem decode_encode {special : Char → Bool} (keeps : Keeps special) (cs : List Char) :
    decode (encode special cs) = decode cs := by
  induction length : cs.length using Nat.strongRecOn generalizing cs with
  | ind n ih =>
    cases cs with
    | nil => rfl
    | cons c cs =>
      rcases decode_cases c cs with ⟨rfl, h, l, rest, b, rfl, high, low, octet⟩ | ⟨plain, read⟩
      · rw [encode_plain keeps.1, encode_plain (keeps.2 h high), encode_plain (keeps.2 l low),
          octet, octet, ih rest.length (by simp [← length]; omega) rest rfl]
      · have shorter : cs.length < n := by simp [← length]
        rw [read, ← ih cs.length shorter cs rfl]
        cases special_c : special c with
        | true => rw [encode_special special_c, decode_octets]
        | false =>
          rw [encode_plain special_c]
          rcases decode_cases c (encode special cs) with
            ⟨rfl, h, l, rest, b, written, high, low, -⟩ | ⟨-, read⟩
          · exact absurd ⟨rfl, beginsWithDigits_of_encode ⟨h, l, rest, written, high, low⟩⟩ plain
          · exact read

/-! ### What escapes change -/

/-- A text decodes to its own octets, or to fewer if there are escapes in it. -/
theorem decode_eq_or_lt (cs : List Char) :
    (¬ Escaped cs ∧ decode cs = Utf8.encode cs) ∨
      (Escaped cs ∧ (decode cs).length < (Utf8.encode cs).length) := by
  induction length : cs.length using Nat.strongRecOn generalizing cs with
  | ind n ih =>
    cases cs with
    | nil => exact .inl ⟨not_escaped_nil, rfl⟩
    | cons c cs =>
      have written (c : Char) (cs : List Char) :
        Utf8.encode (c :: cs) = Utf8.octets c ++ Utf8.encode cs := rfl
      have octets_pos (c : Char) : 0 < (Utf8.octets c).length :=
        List.length_pos_iff.2 (Utf8.octets_ne_nil c)
      rcases decode_cases c cs with ⟨rfl, h, l, rest, b, rfl, high, low, octet⟩ | ⟨plain, read⟩
      · refine .inr ⟨escaped_cons.2 (.inl ⟨rfl, h, l, rest, rfl, high, low⟩), ?_⟩
        have le : (decode rest).length ≤ (Utf8.encode rest).length := by
          rcases ih rest.length (by simp [← length]; omega) rest rfl with ⟨-, same⟩ | ⟨-, less⟩
          · exact Nat.le_of_eq (congrArg List.length same)
          · omega
        have sign := octets_pos '%'
        have first := octets_pos h
        have second := octets_pos l
        simp only [octet, written, List.length_append, List.length_cons]
        omega
      · have shorter : cs.length < n := by simp [← length]
        rcases ih cs.length shorter cs rfl with ⟨unescaped, same⟩ | ⟨escaped, less⟩
        · exact .inl ⟨fun h => (escaped_cons.1 h).elim plain unescaped, by rw [read, same, written]⟩
        · refine .inr ⟨escaped_cons.2 (.inr escaped), ?_⟩
          rw [read, written, List.length_append, List.length_append]
          omega

/-- **A text decodes to itself exactly when no escape is in it.** -/
theorem decode_eq_iff {cs : List Char} : decode cs = Utf8.encode cs ↔ ¬ Escaped cs := by
  rcases decode_eq_or_lt cs with ⟨unescaped, same⟩ | ⟨escaped, less⟩
  · exact iff_of_true same unescaped
  · refine iff_of_false (fun same => ?_) (not_not_intro escaped)
    rw [same] at less
    exact Nat.lt_irrefl _ less

theorem isUserInfo_keeps : Keeps isUserInfo := by
  refine ⟨by decide, fun c digit => ?_⟩
  have range : (0x30 ≤ c.toNat ∧ c.toNat ≤ 0x39) ∨ (0x41 ≤ c.toNat ∧ c.toNat ≤ 0x46) ∨
      (0x61 ≤ c.toNat ∧ c.toNat ≤ 0x66) := by
    rw [IsHexDigit, Hex.value?] at digit
    grind
  have all : ∀ n < 0x67, (0x30 ≤ n ∧ n ≤ 0x39) ∨ (0x41 ≤ n ∧ n ≤ 0x46) ∨ (0x61 ≤ n ∧ n ≤ 0x66) →
      isUserInfo (Char.ofNat n) = false := by decide
  have small := all c.toNat (by omega) range
  rwa [Char.ofNat_toNat] at small

theorem isPath_keeps : Keeps isPath := by
  refine ⟨by decide, fun c digit => ?_⟩
  have plain := isUserInfo_keeps.2 c digit
  rw [isUserInfo, Bool.or_eq_false_iff] at plain
  exact plain.1

end NamedStores.Percent
