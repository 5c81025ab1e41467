/-
The product of an address and the scheme that is read of it. A product is told from how the
address begins when lower-cased, a URL reader lower-cases the letters of the scheme alone: on
an address of a product both find the same scheme, since no character outside ASCII lower-cases
to a letter of one that a product goes by.
-/
import NamedStores.Proofs.Url.RoundTrip
import NamedStores.Sql.Product

namespace NamedStores

/-! ## Lower case -/

namespace Case

theorem lower_cons (c : Char) (cs : List Char) :
    lower (c :: cs) = (if c.toNat = 0x212A then ['k']
      else if c.toNat = 0x130 then ['i', Char.ofNat 0x307] else [lowerAscii c]) ++ lower cs := rfl

theorem lower_append (cs ds : List Char) : lower (cs ++ ds) = lower cs ++ lower ds :=
  List.flatMap_append

/-- A character of ASCII lower-cases to one character, and all others that have a letter in their
lower case are the Kelvin sign and the dotted capital I. -/
theorem lower_cons_cases (c : Char) (cs : List Char) :
    lower (c :: cs) = 'k' :: lower cs ∨ lower (c :: cs) = 'i' :: Char.ofNat 0x307 :: lower cs ∨
      lower (c :: cs) = lowerAscii c :: lower cs := by
  rw [lower_cons]
  split
  · exact .inl rfl
  · split
    · exact .inr (.inl rfl)
    · exact .inr (.inr rfl)

/-- A word found at the beginning of a text in lower case is written there in ASCII, unless it has a
`k` or a combining dot, or ends with an `i`, whose dot may stand behind it. -/
theorem written_of_lower {word more cs : List Char}
    (plain : ∀ c ∈ word, c ≠ 'k' ∧ c ≠ Char.ofNat 0x307) (ends : word.getLast? ≠ some 'i')
    (h : lower cs = word ++ more) : ∃ written rest, cs = written ++ rest ∧
      written.map lowerAscii = word := by
  induction word generalizing cs with
  | nil => exact ⟨[], cs, rfl, rfl⟩
  | cons d word ih =>
    cases cs with
    | nil => cases h
    | cons c cs =>
      rcases lower_cons_cases c cs with kelvin | dotted | ascii
      · rw [kelvin] at h
        exact absurd (List.cons.inj h).1.symm (plain d List.mem_cons_self).1
      · -- The combining dot would have to stand in the word, or right behind it.
        rw [dotted] at h
        obtain ⟨letter, dot⟩ := List.cons.inj h
        cases word with
        | nil => exact absurd (by rw [← letter]; rfl) ends
        | cons e word =>
          have second := plain e (List.mem_cons_of_mem d List.mem_cons_self)
          exact absurd (List.cons.inj dot).1.symm second.2
      · rw [ascii] at h
        obtain ⟨same, later⟩ := List.cons.inj h
        have ends_later : word.getLast? ≠ some 'i' := by
          cases word with
          | nil => simp
          | cons e word => rwa [List.getLast?_cons_cons] at ends
        obtain ⟨written, rest, rfl, rfl⟩ :=
          ih (fun e he => plain e (List.mem_cons_of_mem d he)) ends_later later
        exact ⟨c :: written, rest, rfl, by rw [List.map_cons, same]⟩

/-- What lower-cases to ASCII letter by letter does so as a text. -/
theorem lower_of_ascii {written : List Char} (ascii : ∀ c ∈ written.map lowerAscii, c.toNat < 128) :
    lower written = written.map lowerAscii := by
  induction written with
  | nil => rfl
  | cons c cs ih =>
    simp only [List.map_cons, List.mem_cons, forall_eq_or_imp] at ascii
    obtain ⟨first, later⟩ := ascii
    have small : c.toNat < 128 := by
      rcases Url.lowerAscii_cases c with ⟨same, -⟩ | ⟨-, last, -⟩
      · rwa [same] at first
      · have last : c.toNat ≤ 90 := last
        omega
    rw [lower_cons, if_neg (by omega), if_neg (by omega), ih later]
    rfl

end Case

namespace Sql.Product

/-! ## Schemes -/

/-- The schemes a product goes by. -/
def schemes : Product → List (List Char)
  | .postgreSQL => ["postgres".toList, "postgresql".toList]
  | .mySQL => ["mysql".toList, "mariadb".toList]
  | .sqlite => ["sqlite".toList]

/-- Schemes are small letters, none of them a `k`. -/
theorem schemes_plain {p : Product} {scheme : List Char} (h : scheme ∈ p.schemes) :
    ∀ c ∈ scheme, 'a' ≤ c ∧ c ≤ 'z' ∧ c ≠ 'k' := by
  have all : (p.schemes.all fun scheme => scheme.all fun c => 'a' ≤ c ∧ c ≤ 'z' ∧ c ≠ 'k') = true := by
    cases p <;> decide
  exact fun c hc => of_decide_eq_true (List.all_eq_true.mp (List.all_eq_true.mp all scheme h) c hc)

/-- The addresses of a product begin with one of its schemes and a colon. -/
theorem beginnings_schemes {p : Product} {b : String} (h : b ∈ p.beginnings) :
    ∃ scheme ∈ p.schemes, ∃ more, b.toList = scheme ++ ':' :: more := by
  cases p with
  | postgreSQL =>
    simp only [beginnings, List.mem_cons, List.not_mem_nil, or_false] at h
    rcases h with rfl | rfl
    · exact ⟨"postgres".toList, by decide, ['/', '/'], rfl⟩
    · exact ⟨"postgresql".toList, by decide, ['/', '/'], rfl⟩
  | mySQL =>
    simp only [beginnings, List.mem_cons, List.not_mem_nil, or_false] at h
    rcases h with rfl | rfl
    · exact ⟨"mysql".toList, by decide, ['/', '/'], rfl⟩
    · exact ⟨"mariadb".toList, by decide, ['/', '/'], rfl⟩
  | sqlite =>
    simp only [beginnings, List.mem_cons, List.not_mem_nil, or_false] at h
    exact ⟨"sqlite".toList, by decide, [], by rw [h]; rfl⟩

/-- The address begins as those of a product do, in whatever case of ASCII. -/
def Begins (p : Product) (address : String) : Prop :=
  ∃ b ∈ p.beginnings, ∃ written rest, address.toList = written ++ rest ∧
    written.map Case.lowerAscii = b.toList

/-- No beginning has a letter that another character than an ASCII letter could stand for. -/
theorem beginnings_plain {p : Product} {b : String} (h : b ∈ p.beginnings) :
    (∀ c ∈ b.toList, c.toNat < 128 ∧ c ≠ 'k') ∧ b.toList.getLast? ≠ some 'i' := by
  have all : (p.beginnings.all fun b => b.toList.all (fun c => c.toNat < 128 ∧ c ≠ 'k') &&
      decide (b.toList.getLast? ≠ some 'i')) = true := by
    cases p <;> decide
  have plain := List.all_eq_true.mp all b h
  rw [Bool.and_eq_true, decide_eq_true_eq] at plain
  exact ⟨fun c hc => of_decide_eq_true (List.all_eq_true.mp plain.1 c hc), plain.2⟩

theorem begins_of_ofAddress? {address : String} {p : Product} (h : ofAddress? address = some p) :
    Begins p address := by
  have begins := List.find?_some h
  obtain ⟨b, listed, isPrefix⟩ := List.any_eq_true.mp begins
  obtain ⟨rest, lower⟩ := List.isPrefixOf_iff_prefix.mp isPrefix
  obtain ⟨plain, ends⟩ := beginnings_plain listed
  have letters : ∀ c ∈ b.toList, c ≠ 'k' ∧ c ≠ Char.ofNat 0x307 := by
    intro c hc
    obtain ⟨ascii, other⟩ := plain c hc
    exact ⟨other, by rintro rfl; exact absurd ascii (by decide)⟩
  obtain ⟨written, behind, parts, same⟩ := Case.written_of_lower letters ends lower.symm
  exact ⟨b, listed, written, behind, parts, same⟩

/-- **A product is found for an address exactly when it begins as those of some product do.** -/
theorem exists_ofAddress? {address : String} :
    (∃ p, ofAddress? address = some p) ↔ ∃ p, Begins p address := by
  constructor
  · rintro ⟨p, found⟩
    exact ⟨p, begins_of_ofAddress? found⟩
  · rintro ⟨p, b, listed, written, rest, parts, same⟩
    have lower : Case.lower address.toList = b.toList ++ Case.lower rest := by
      rw [parts, Case.lower_append, Case.lower_of_ascii, same]
      rw [same]
      exact fun c hc => ((beginnings_plain listed).1 c hc).1
    rw [← Option.isSome_iff_exists, ofAddress?, List.find?_isSome]
    refine ⟨p, by cases p <;> decide, List.any_eq_true.mpr ⟨b, listed, ?_⟩⟩
    rw [lower]
    exact List.isPrefixOf_iff_prefix.mpr (List.prefix_append ..)

/-- An address of a product begins with a scheme of it, in whatever case. -/
theorem written_of_product {address : String} {p : Product} (h : ofAddress? address = some p) :
    ∃ written rest, address.toList = written ++ ':' :: rest ∧
      written.map Case.lowerAscii ∈ p.schemes := by
  obtain ⟨b, listed, written, rest, parts, same⟩ := begins_of_ofAddress? h
  obtain ⟨scheme, known, more, text⟩ := beginnings_schemes listed
  rw [text] at same
  obtain ⟨first, second, rfl, rfl, colon⟩ := List.map_eq_append_iff.mp same
  obtain ⟨c, behind, rfl, lower, -⟩ := List.map_eq_cons_iff.mp colon
  have colon : c = ':' := Url.eq_of_lowerAscii lower (by decide)
  refine ⟨first, behind ++ rest, ?_, known⟩
  rw [parts, colon, List.append_assoc, List.cons_append]

/-- What a scheme of a product is written with are letters. -/
theorem written_letters {p : Product} {written : List Char}
    (h : written.map Case.lowerAscii ∈ p.schemes) : ∀ c ∈ written, Url.isLetter c = true := by
  intro c hc
  obtain ⟨low, high, -⟩ := schemes_plain h (Case.lowerAscii c) (List.mem_map_of_mem hc)
  rcases Url.lowerAscii_cases c with ⟨same, -⟩ | ⟨capital, last, -⟩
  · rw [same] at low high
    exact Url.isLetter_of_small low high
  · simp [Url.isLetter, capital, last]

theorem written_plain {p : Product} {written : List Char}
    (h : written.map Case.lowerAscii ∈ p.schemes) {c : Char} (other : Url.isLetter c = false) :
    c ∉ written := by
  intro hc
  rw [written_letters h c hc] at other
  cases other

theorem written_visible {p : Product} {written : List Char}
    (h : written.map Case.lowerAscii ∈ p.schemes) : Url.Visible written := by
  intro c hc
  have letter := written_letters h c hc
  simp only [Url.isLetter, Bool.or_eq_true, Bool.and_eq_true, decide_eq_true_eq,
    Url.le_iff_toNat] at letter
  rcases letter with small | capital
  · have low : 97 ≤ c.toNat := small.1
    omega
  · have low : 65 ≤ c.toNat := capital.1
    omega

/-- **The scheme that is read of an address is the one its product is told by.** -/
theorem scheme_read [Url.HostNames] {p : Product} {written rest : List Char} {u : Url}
    (known : written.map Case.lowerAscii ∈ p.schemes)
    (read : Url.ofChars (written ++ ':' :: rest) = .ok u) :
    u.scheme = written.map Case.lowerAscii := by
  obtain ⟨after, split⟩ := Url.ofChars_scheme read
  rw [Url.clean_middle (by decide), Url.begun_visible (written_visible known)] at split
  exact (Url.splitScheme?_colon (written_plain known (by decide)) split).1

/-- Behind such a scheme `://` makes an address of the product. -/
theorem ofAddress?_of_scheme {p : Product} {scheme : List Char} (h : scheme ∈ p.schemes)
    (rest : List Char) :
    ofAddress? (String.ofList (scheme ++ ':' :: '/' :: '/' :: rest)) = some p := by
  rw [ofAddress?, String.toList_ofList, Case.lower_append]
  cases p with
  | postgreSQL =>
    simp only [schemes, List.mem_cons, List.not_mem_nil, or_false] at h
    rcases h with rfl | rfl <;> rfl
  | mySQL =>
    simp only [schemes, List.mem_cons, List.not_mem_nil, or_false] at h
    rcases h with rfl | rfl <;> rfl
  | sqlite =>
    simp only [schemes, List.mem_cons, List.not_mem_nil, or_false] at h
    rw [h]
    rfl

end Sql.Product

end NamedStores
