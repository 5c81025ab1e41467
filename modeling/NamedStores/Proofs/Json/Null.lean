/-
The texts that are read as null: the word itself, with blanks around it. Everything else that is
read as a value begins with another character, and gives a value of another kind.
-/
import Mathlib.Data.List.TakeWhile
import NamedStores.Proofs.Json.Ordered
import NamedStores.Proofs.Json.Scalar

namespace NamedStores.Json

/-! ## Octets and characters -/

theorem toNat_asChar (b : UInt8) : (asChar b).toNat = b.toNat := by
  have octet := b.toNat_lt
  exact Utf8.toNat_char (.inl (by omega))

theorem asChar_eq_iff {b : UInt8} {c : Char} (ascii : c.toNat < 0x80) :
    asChar b = c ↔ b = .ofNat c.toNat := by
  constructor
  · intro same
    rw [← same, toNat_asChar, UInt8.ofNat_toNat]
  · intro written
    rw [written]
    exact asChar_ascii ascii

/-- Octets of ASCII are the characters of the text. -/
theorem eq_of_encode_ascii {cs : List Char} {bs : Bytes} (ascii : ∀ b ∈ bs, b.toNat < 0x80)
    (written : Utf8.encode cs = bs) : cs = bs.map asChar := by
  have back : Utf8.encode (bs.map asChar) = bs := by
    clear written
    induction bs with
    | nil => rfl
    | cons b bs ih =>
      have small : (asChar b).toNat < 0x80 := by
        rw [toNat_asChar]
        exact ascii b List.mem_cons_self
      rw [List.map_cons, Utf8.encode_cons_ascii small, toNat_asChar, UInt8.ofNat_toNat,
        ih fun b hb => ascii b (List.mem_cons_of_mem _ hb)]
  have read := Utf8.decode?_encode cs
  rw [written, ← back, Utf8.decode?_encode] at read
  exact (Option.some.inj read).symm

theorem word_eq_ok {cs : List Char} (ascii : ∀ c ∈ cs, c.toNat < 0x80) {bs rest : Bytes} :
    word cs bs = .ok rest ↔ bs = Utf8.encode cs ++ rest := by
  induction cs generalizing bs with
  | nil =>
    rw [word, Except.ok.injEq]
    rfl
  | cons c cs ih =>
    have first := ascii c List.mem_cons_self
    have others : ∀ d ∈ cs, d.toNat < 0x80 := fun d hd => ascii d (List.mem_cons_of_mem c hd)
    rw [Utf8.encode_cons_ascii first, List.cons_append]
    cases bs with
    | nil => exact iff_of_false (fun h => by cases h) fun h => by cases h
    | cons b bs =>
      rw [word, List.cons.injEq]
      by_cases same : asChar b = c
      · rw [if_pos same, ih others]
        exact (and_iff_right ((asChar_eq_iff first).mp same)).symm
      · rw [if_neg same]
        exact iff_of_false (fun h => by cases h) fun h => same ((asChar_eq_iff first).mpr h.1)

/-! ## Values -/

/-- The octets of the word. -/
def nullWord : Bytes := Utf8.encode "null".toList

theorem scalar_null {b : UInt8} {bs rest : Bytes} :
    scalar b bs = .ok (.null, rest) ↔ b :: bs = nullWord ++ rest := by
  constructor
  · intro h
    have number {r : Step Json} (hr : GivesNumber r) (given : r = .ok (.null, rest)) : False := by
      rcases hr _ _ given with ⟨n, other⟩ | ⟨x, other⟩ <;> cases other
    unfold scalar at h
    split at h
    · rename_i mark
      obtain ⟨left, letters, same⟩ := map_eq_ok h
      cases same
      have plain : ['u', 'l', 'l'].all (fun c => c.toNat < 0x80) = true := by decide
      have ascii : ∀ c ∈ ['u', 'l', 'l'], c.toNat < 0x80 := fun c hc =>
        of_decide_eq_true (List.all_eq_true.mp plain c hc)
      have first : b = 0x6E := (asChar_eq_iff (by decide)).mp mark
      rw [first, (word_eq_ok ascii).mp letters]
      rfl
    · obtain ⟨_, -, same⟩ := map_eq_ok h
      cases same
    · obtain ⟨_, -, same⟩ := map_eq_ok h
      cases same
    · exact (number Number.read_number h).elim
    · obtain ⟨_, -, same⟩ := map_eq_ok h
      cases same
    · split at h
      · exact (number Number.read_number h).elim
      · cases h
  · intro h
    cases h
    rfl

theorem value_null {fuel limit : Nat} {bs rest : Bytes} :
    value (fuel + 1) limit bs = .ok (.null, rest) ↔ skipBlanks bs = nullWord ++ rest := by
  rw [value]
  cases visible : skipBlanks bs with
  | nil => exact iff_of_false (fun h => by cases h) fun h => by cases h
  | cons b more =>
    rw [← scalar_null]
    dsimp only
    constructor
    · intro h
      split at h
      · split at h
        · cases h
        · split at h <;> cases h
      · split at h
        · split at h
          · cases h
          · split at h <;> cases h
        · exact h
    · intro h
      have word := scalar_null.mp h
      have first : b = 0x6E := (List.cons.inj word).1
      rw [if_neg (by rw [first]; decide), if_neg (by rw [first]; decide)]
      exact h

theorem finish_eq_ok {bs : Bytes} : finish bs = .ok () ↔ ∀ b ∈ bs, isBlank b = true := by
  rw [finish, skipBlanks, ← List.dropWhile_eq_nil_iff]
  cases bs.dropWhile isBlank with
  | nil => exact iff_of_true rfl rfl
  | cons b rest => exact iff_of_false (fun h => by cases h) fun h => by cases h

theorem skipBlanks_append {before : Bytes} (blank : ∀ b ∈ before, isBlank b = true) (bs : Bytes) :
    skipBlanks (before ++ bs) = skipBlanks bs :=
  List.dropWhile_append_of_pos blank

theorem ofOctets_null {bs : Bytes} : ofOctets bs = .ok .null ↔
    ∃ before after, (∀ b ∈ before, isBlank b = true) ∧ (∀ b ∈ after, isBlank b = true) ∧
      bs = before ++ (nullWord ++ after) := by
  rw [ofOctets_eq_ok, read_eq_ok]
  constructor
  · intro h
    obtain ⟨after, word, ended⟩ := h
    refine ⟨bs.takeWhile isBlank, after, fun b hb => List.mem_takeWhile_imp hb,
      finish_eq_ok.mp ended, ?_⟩
    rw [← value_null.mp word, skipBlanks, List.takeWhile_append_dropWhile]
  · intro h
    obtain ⟨before, after, blank, blank', rfl⟩ := h
    refine ⟨after, value_null.mpr ?_, finish_eq_ok.mpr blank'⟩
    rw [skipBlanks_append blank]
    rfl

theorem isBlank_cases {b : UInt8} (h : isBlank b = true) : b = 32 ∨ b = 9 ∨ b = 10 ∨ b = 13 := by
  simpa [isBlank, or_assoc] using h

/-- The characters that are blanks between the parts of a text. -/
def blanks : List Char := [' ', '\t', '\n', '\r']

theorem asChar_blank {b : UInt8} (h : isBlank b = true) : b.toNat < 0x80 ∧ asChar b ∈ blanks := by
  rcases isBlank_cases h with rfl | rfl | rfl | rfl <;> decide

theorem isBlank_of_mem_encode {cs : List Char} (blank : ∀ c ∈ cs, c ∈ blanks) {b : UInt8}
    (h : b ∈ Utf8.encode cs) : isBlank b = true := by
  obtain ⟨c, inside, written⟩ := List.mem_flatMap.mp h
  have octets : blanks.all (fun c => (Utf8.octets c).all isBlank) = true := by decide
  have found := List.all_eq_true.mp octets c (blank c inside)
  exact List.all_eq_true.mp found b written

/-- **A text is read as null when it is the word, with blanks around it.** -/
theorem ofText_null {s : String} : ofText s = .ok .null ↔
    ∃ before after : List Char, (∀ c ∈ before ++ after, c ∈ blanks) ∧
      s.toList = before ++ "null".toList ++ after := by
  rw [ofText, Utf8.ofString, ofOctets_null]
  constructor
  · intro h
    obtain ⟨before, after, blank, blank', written⟩ := h
    refine ⟨before.map asChar, after.map asChar, fun c hc => ?_, ?_⟩
    · rw [← List.map_append] at hc
      obtain ⟨b, hb, rfl⟩ := List.mem_map.mp hc
      rcases List.mem_append.mp hb with front | back
      · exact (asChar_blank (blank b front)).2
      · exact (asChar_blank (blank' b back)).2
    · have ascii : ∀ b ∈ before ++ (nullWord ++ after), b.toNat < 0x80 := by
        intro b hb
        rcases List.mem_append.mp hb with front | behind
        · exact (asChar_blank (blank b front)).1
        · rcases List.mem_append.mp behind with word | back
          · have letters : nullWord.all (fun b => b.toNat < 0x80) = true := by decide
            simpa using List.all_eq_true.mp letters b word
          · exact (asChar_blank (blank' b back)).1
      have letters : nullWord.map asChar = "null".toList := by decide
      rw [eq_of_encode_ascii ascii written, List.map_append, List.map_append, letters,
        List.append_assoc]
  · intro h
    obtain ⟨before, after, blank, written⟩ := h
    refine ⟨Utf8.encode before, Utf8.encode after, fun b hb => ?_, fun b hb => ?_, ?_⟩
    · exact isBlank_of_mem_encode (fun c hc => blank c (List.mem_append_left after hc)) hb
    · exact isBlank_of_mem_encode (fun c hc => blank c (List.mem_append_right before hc)) hb
    · rw [written, Utf8.encode_append, Utf8.encode_append, List.append_assoc]
      rfl

end NamedStores.Json
