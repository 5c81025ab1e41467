/-
Pairs sent in a query come back as they were. The separators never stand inside an encoded name
or value, and undoing the encoding of a text gives the text.
-/
import NamedStores.Proofs.Text.Percent
import NamedStores.Proofs.Text.Split
import NamedStores.Url.Form

namespace NamedStores.Form

/-! ## The characters written -/

/-- The characters that names and values are written with. -/
def isWritten (c : Char) : Bool := stays c || c = '+' || c = '%'

theorem isWritten_of_isOctetChar {c : Char} (h : Percent.IsOctetChar c) : isWritten c = true :=
  h.all (by decide) (by decide)

theorem isWritten_of_mem_encode {s : String} {c : Char} (h : c ∈ encode s) :
    isWritten c = true := by
  obtain ⟨d, -, hc⟩ := List.mem_flatMap.mp h
  split at hc
  · rw [List.mem_singleton.mp hc]
    decide
  · split at hc
    · rename_i plain
      rw [List.mem_singleton.mp hc, isWritten, plain]
      rfl
    · obtain ⟨b, -, hb⟩ := List.mem_flatMap.mp hc
      exact isWritten_of_isOctetChar (Percent.isOctetChar_of_mem_octet hb)

/-- Written characters are visible ones of ASCII. -/
theorem isWritten_visible {c : Char} (h : isWritten c = true) :
    0x20 < c.toNat ∧ c.toNat ≤ 0x7E := by
  have le (a b : Char) : a ≤ b ↔ a.toNat ≤ b.toNat := Iff.rfl
  have range (low high : Char) (hl : 0x20 < low.toNat) (hh : high.toNat ≤ 0x7E)
      (h : (decide (low ≤ c) && decide (c ≤ high)) = true) : 0x20 < c.toNat ∧ c.toNat ≤ 0x7E := by
    simp only [Bool.and_eq_true, decide_eq_true_eq, le] at h
    omega
  simp only [isWritten, stays, Url.isLetter, Ipv6.isDigit, Bool.or_eq_true, decide_eq_true_eq,
    List.mem_cons, List.not_mem_nil, or_false] at h
  rcases h with ((((lower | upper) | digit) | mark) | rfl) | rfl
  · exact range 'a' 'z' (by decide) (by decide) lower
  · exact range 'A' 'Z' (by decide) (by decide) upper
  · exact range '0' '9' (by decide) (by decide) digit
  · rcases mark with rfl | rfl | rfl | rfl <;> decide
  · decide
  · decide

theorem isQuery_of_isWritten {c : Char} (h : isWritten c = true) : Percent.isQuery c = false := by
  obtain ⟨low, high⟩ := isWritten_visible h
  have visible : Percent.isControl c = false := by
    simp [Percent.isControl]
    omega
  have plain : c ∉ [' ', '"', '#', '<', '>'] := by
    intro hc
    simp only [List.mem_cons, List.not_mem_nil, or_false] at hc
    rcases hc with rfl | rfl | rfl | rfl | rfl <;> exact absurd h (by decide)
  rw [Percent.isQuery, visible, decide_eq_false plain]
  rfl

theorem not_mem_encode {c : Char} (h : isWritten c = false) (s : String) : c ∉ encode s := by
  intro hc
  rw [isWritten_of_mem_encode hc] at h
  cases h

/-! ## One text -/

theorem decode_encode (s : String) : decode (encode s) = s := by
  let plus (c : Char) : Char := if c = '+' then ' ' else c
  have octets (bs : Bytes) : (bs.flatMap Percent.octet).map plus = bs.flatMap Percent.octet := by
    refine List.map_congr_left (g := id) (fun c hc => ?_) |>.trans (List.map_id _)
    obtain ⟨b, -, hb⟩ := List.mem_flatMap.mp hc
    have other := (Percent.isOctetChar_of_mem_octet hb).all (p := fun c => c ≠ '+')
      (by decide) (by decide)
    exact if_neg (by simpa using other)
  have chars : ∀ cs : List Char, Percent.decode ((cs.flatMap fun c =>
      if c = ' ' then ['+'] else if stays c then [c] else
        (Utf8.octets c).flatMap Percent.octet).map plus) = Utf8.encode cs := by
    intro cs
    induction cs with
    | nil => rfl
    | cons c cs ih =>
      have written : Utf8.encode (c :: cs) = Utf8.octets c ++ Utf8.encode cs := rfl
      rw [List.flatMap_cons, List.map_append, written, ← ih]
      by_cases space : c = ' '
      · subst space
        exact Percent.decode_plain (by decide) _
      · rw [if_neg space]
        split
        · rename_i plain
          have sign : c ≠ '%' := by rintro rfl; exact absurd plain (by decide)
          have blank : c ≠ '+' := by rintro rfl; exact absurd plain (by decide)
          have same : plus c = c := if_neg blank
          rw [List.map_singleton, same, List.singleton_append, Percent.decode_plain sign]
        · rw [octets, Percent.decode_octets]
  have all : Percent.decode ((encode s).map plus) = Utf8.encode s.toList := chars s.toList
  have unfolded : decode (encode s) =
      Utf8.toStringLossy (Percent.decode ((encode s).map plus)) := rfl
  rw [unfolded, all, Utf8.toStringLossy, Utf8.decodeLossy_encode, String.ofList_toList]

/-! ## Pairs -/

/-- A pair as it is written. -/
def pairChars (pair : String × String) : List Char := encode pair.1 ++ '=' :: encode pair.2

theorem toQuery_eq (pairs : List (String × String)) :
    toQuery pairs = ['&'].intercalate (pairs.map pairChars) := rfl

theorem not_mem_pairChars (pair : String × String) : '&' ∉ pairChars pair := by
  intro h
  rcases List.mem_append.mp h with name | rest
  · exact not_mem_encode (by decide) pair.1 name
  · rcases List.mem_cons.mp rest with other | value
    · exact absurd other (by decide)
    · exact not_mem_encode (by decide) pair.2 value

theorem parts_toQuery (pairs : List (String × String)) :
    parts (toQuery pairs) = pairs.map pairChars := by
  rw [toQuery_eq, parts]
  cases pairs with
  | nil => rfl
  | cons pair pairs =>
    have separate : ∀ part ∈ (pair :: pairs).map pairChars, '&' ∉ part := by
      intro part hp
      obtain ⟨p, -, rfl⟩ := List.mem_map.mp hp
      exact not_mem_pairChars p
    rw [Split.pieces_intercalate (by simp) separate, List.filter_eq_self]
    intro part hp
    obtain ⟨p, -, rfl⟩ := List.mem_map.mp hp
    simp [pairChars]

theorem ofQuery_toQuery (pairs : List (String × String)) : ofQuery (toQuery pairs) = pairs := by
  rw [ofQuery, parts_toQuery, List.map_map]
  refine List.map_congr_left (g := id) (fun pair _ => ?_) |>.trans (List.map_id _)
  have cut : Split.cutOff '=' (pairChars pair) = (encode pair.1, some (encode pair.2)) :=
    Split.cutOff_joined (not_mem_encode (by decide) pair.1) (some (encode pair.2))
  simp only [Function.comp, cut, Option.getD_some, decode_encode, id]

/-- A query of pairs holds written characters and separators. -/
theorem mem_toQuery {pairs : List (String × String)} {c : Char} (h : c ∈ toQuery pairs) :
    isWritten c = true ∨ c = '&' ∨ c = '=' := by
  have pair {p : String × String} (h : c ∈ pairChars p) :
      isWritten c = true ∨ c = '&' ∨ c = '=' := by
    rcases List.mem_append.mp h with name | rest
    · exact .inl (isWritten_of_mem_encode name)
    · rcases List.mem_cons.mp rest with rfl | value
      · exact .inr (.inr rfl)
      · exact .inl (isWritten_of_mem_encode value)
  rw [toQuery_eq] at h
  induction pairs with
  | nil => exact absurd h List.not_mem_nil
  | cons p pairs ih =>
    cases pairs with
    | nil => exact pair (by simpa using h)
    | cons q pairs =>
      rw [List.map_cons, List.map_cons, List.intercalate_cons_cons] at h
      rcases List.mem_append.mp h with front | rest
      · rcases List.mem_append.mp front with first | mark
        · exact pair first
        · exact .inr (.inl (List.mem_singleton.mp mark))
      · exact ih rest

theorem toQuery_settled (pairs : List (String × String)) :
    Percent.Settled Percent.isQuery (toQuery pairs) := by
  intro c hc
  rcases mem_toQuery hc with written | rfl | rfl
  · exact isQuery_of_isWritten written
  · decide
  · decide

end NamedStores.Form
