/-
Schemes and paths as reading leaves them, and text in which nothing is left to drop. A scheme is
in lower case already, and in a path the segments are encoded behind their slashes.
-/
import NamedStores.Proofs.Text.Integer
import NamedStores.Proofs.Text.Percent
import NamedStores.Proofs.Text.Split
import NamedStores.Url.Reader

namespace NamedStores.Url

/-! ## Visible text -/

/-- Text without blanks and controls of ASCII, which reading drops. -/
def Visible (cs : List Char) : Prop := ∀ c ∈ cs, 0x20 < c.toNat

theorem Visible.append {cs ds : List Char} (hc : Visible cs) (hd : Visible ds) :
    Visible (cs ++ ds) := by
  intro c h
  rcases List.mem_append.mp h with left | right
  · exact hc c left
  · exact hd c right

theorem Visible.cons {c : Char} {cs : List Char} (h : 0x20 < c.toNat) (hc : Visible cs) :
    Visible (c :: cs) := by
  intro d hd
  rcases List.mem_cons.mp hd with rfl | later
  · exact h
  · exact hc d later

/-- Where controls and the space are encoded, what is settled is visible. -/
theorem visible_of_settled {special : Char → Bool} {cs : List Char}
    (h : Percent.Settled special cs) (controls : ∀ c, Percent.isControl c = true → special c = true)
    (space : special ' ' = true) : Visible cs := by
  intro c hc
  have plain := h c hc
  have control : Percent.isControl c = false :=
    Bool.eq_false_iff.mpr fun found => by rw [controls c found] at plain; cases plain
  have other : c ≠ ' ' := by rintro rfl; rw [space] at plain; cases plain
  have code : c.toNat ≠ 0x20 := fun e => other (Char.toNat_inj.mp e)
  simp only [Percent.isControl, Bool.or_eq_false_iff, decide_eq_false_iff_not] at control
  omega

theorem visible_query {cs : List Char} (h : Percent.Settled Percent.isQuery cs) : Visible cs :=
  visible_of_settled h (fun c hc => by simp [Percent.isQuery, hc]) (by decide)

theorem visible_fragment {cs : List Char} (h : Percent.Settled Percent.isFragment cs) :
    Visible cs :=
  visible_of_settled h (fun c hc => by simp [Percent.isFragment, hc]) (by decide)

theorem visible_path {cs : List Char} (h : Percent.Settled Percent.isPath cs) : Visible cs :=
  visible_of_settled h (fun c hc => by simp [Percent.isPath, Percent.isFragment, hc]) (by decide)

theorem visible_userInfo {cs : List Char} (h : Percent.Settled Percent.isUserInfo cs) :
    Visible cs :=
  visible_of_settled h
    (fun c hc => by simp [Percent.isUserInfo, Percent.isPath, Percent.isFragment, hc]) (by decide)

/-! ### What is dropped -/

/-- A control or a space, which is dropped at both ends. -/
def isOuter (c : Char) : Bool := c.toNat ≤ 0x20

/-- No tab and no line break, which are dropped everywhere. -/
def isKept (c : Char) : Bool := c ≠ '\t' && c ≠ '\n' && c ≠ '\r'

/-- A text without its tabs and line breaks. -/
def unbroken (cs : List Char) : List Char := cs.filter isKept

theorem clean_unfold (cs : List Char) :
    clean cs = unbroken ((cs.dropWhile isOuter).reverse.dropWhile isOuter).reverse := rfl

theorem isKept_of_le {c : Char} (h : 0x20 ≤ c.toNat) : isKept c = true := by
  have tab : c ≠ '\t' := by rintro rfl; exact absurd h (by decide)
  have line : c ≠ '\n' := by rintro rfl; exact absurd h (by decide)
  have feed : c ≠ '\r' := by rintro rfl; exact absurd h (by decide)
  simp [isKept, tab, line, feed]

theorem dropWhile_isOuter {cs : List Char} (h : ∀ c ∈ cs.head?, 0x20 < c.toNat) :
    cs.dropWhile isOuter = cs := by
  cases cs with
  | nil => rfl
  | cons c cs =>
    have visible := h c rfl
    exact List.dropWhile_cons_of_neg (by simpa [isOuter] using visible)

/-- A text without controls is read as it is when neither end is blank. -/
theorem clean_eq {cs : List Char} (inside : ∀ c ∈ cs, 0x20 ≤ c.toNat)
    (first : ∀ c ∈ cs.head?, 0x20 < c.toNat) (last : ∀ c ∈ cs.getLast?, 0x20 < c.toNat) :
    clean cs = cs := by
  have back : ∀ c ∈ cs.reverse.head?, 0x20 < c.toNat := by rwa [List.head?_reverse]
  rw [clean_unfold, dropWhile_isOuter first, dropWhile_isOuter back, List.reverse_reverse]
  exact List.filter_eq_self.mpr fun c hc => isKept_of_le (inside c hc)

/-- Visible text is read as it is. -/
theorem clean_visible {cs : List Char} (h : Visible cs) : clean cs = cs :=
  clean_eq (fun c hc => Nat.le_of_lt (h c hc)) (fun c hc => h c (List.mem_of_mem_head? hc))
    (fun c hc => h c (List.mem_of_getLast? hc))

theorem dropWhile_before {p : Char → Bool} {c : Char} (hc : p c = false) (before after : List Char) :
    (before ++ c :: after).dropWhile p = before.dropWhile p ++ c :: after := by
  induction before with
  | nil => exact List.dropWhile_cons_of_neg (by simp [hc])
  | cons d before ih =>
    rw [List.cons_append, List.dropWhile_cons, List.dropWhile_cons, ih]
    split <;> rfl

/-! ### What is dropped before and behind a visible character -/

/-- What is read of a text before a visible character. -/
def begun (cs : List Char) : List Char := unbroken (cs.dropWhile isOuter)

/-- What is read of a text behind a visible character. -/
def ended (cs : List Char) : List Char := unbroken (cs.reverse.dropWhile isOuter).reverse

/-! Of visible text nothing is dropped. -/

theorem unbroken_visible {cs : List Char} (h : Visible cs) : unbroken cs = cs :=
  List.filter_eq_self.mpr fun c hc => isKept_of_le (Nat.le_of_lt (h c hc))

theorem begun_visible {cs : List Char} (h : Visible cs) : begun cs = cs := by
  rw [begun, dropWhile_isOuter fun c hc => h c (List.mem_of_mem_head? hc), unbroken_visible h]

theorem ended_visible {cs : List Char} (h : Visible cs) : ended cs = cs := by
  have back : Visible cs.reverse := fun c hc => h c (List.mem_reverse.mp hc)
  rw [ended, dropWhile_isOuter fun c hc => back c (List.mem_of_mem_head? hc), List.reverse_reverse,
    unbroken_visible h]

section

variable {c : Char} (hc : 0x20 < c.toNat) (before after : List Char)

include hc

theorem isOuter_visible : isOuter c = false := by
  simpa [isOuter] using hc

theorem unbroken_middle :
    unbroken (before ++ c :: after) = unbroken before ++ c :: unbroken after := by
  rw [unbroken, List.filter_append, List.filter_cons_of_pos (isKept_of_le (Nat.le_of_lt hc))]
  rfl

theorem ended_middle : ended (before ++ c :: after) = unbroken before ++ c :: ended after := by
  have turned (a b : List Char) : (a ++ c :: b).reverse = b.reverse ++ c :: a.reverse := by simp
  rw [ended, turned, dropWhile_before (isOuter_visible hc), turned, List.reverse_reverse,
    unbroken_middle hc]
  rfl

theorem ended_cons : ended (c :: after) = c :: ended after :=
  ended_middle hc [] after

theorem clean_middle : clean (before ++ c :: after) = begun before ++ c :: ended after := by
  rw [clean_unfold, dropWhile_before (isOuter_visible hc), ← ended, ended_middle hc]
  rfl

end

theorem mem_unbroken {c : Char} {cs : List Char} (h : c ∈ unbroken cs) : c ∈ cs :=
  (List.mem_filter.mp h).1

theorem mem_begun {c : Char} {cs : List Char} (h : c ∈ begun cs) : c ∈ cs :=
  List.dropWhile_subset isOuter (mem_unbroken h)

theorem mem_ended {c : Char} {cs : List Char} (h : c ∈ ended cs) : c ∈ cs :=
  List.mem_reverse.mp (List.dropWhile_subset isOuter (List.mem_reverse.mp (mem_unbroken h)))

/-- Dropping blanks leaves `://` where it stands. -/
theorem clean_around (before after : List Char) :
    clean (before ++ ':' :: '/' :: '/' :: after) =
      begun before ++ ':' :: '/' :: '/' :: ended after := by
  rw [clean_middle (by decide), ended_cons (by decide), ended_cons (by decide)]

/-! ## Schemes -/

/-- A scheme as reading leaves it. -/
structure IsScheme (scheme : List Char) : Prop where
  first : scheme.head?.any isLetter = true
  chars : scheme.all isSchemeChar = true
  lower : scheme.map Case.lowerAscii = scheme

theorem le_iff_toNat (a b : Char) : a ≤ b ↔ a.toNat ≤ b.toNat := Iff.rfl

/-- Only capital letters change in lower case, and then to small ones. -/
theorem lowerAscii_cases (c : Char) :
    Case.lowerAscii c = c ∧ ¬('A' ≤ c ∧ c ≤ 'Z') ∨
      'A' ≤ c ∧ c ≤ 'Z' ∧ 'a' ≤ Case.lowerAscii c ∧ Case.lowerAscii c ≤ 'z' := by
  by_cases capital : 'A' ≤ c ∧ c ≤ 'Z'
  · refine .inr ⟨capital.1, capital.2, ?_⟩
    have all : ∀ n < 91, 65 ≤ n → 'a' ≤ Case.lowerAscii (Char.ofNat n) ∧
        Case.lowerAscii (Char.ofNat n) ≤ 'z' := by decide
    have low : 65 ≤ c.toNat := capital.1
    have high : c.toNat ≤ 90 := capital.2
    have small := all c.toNat (by omega) low
    rwa [Char.ofNat_toNat] at small
  · exact .inl ⟨if_neg capital, capital⟩

theorem isLetter_of_small {c : Char} (low : 'a' ≤ c) (high : c ≤ 'z') : isLetter c = true := by
  simp [isLetter, low, high]

theorem isLetter_lowerAscii {c : Char} (h : isLetter c = true) :
    isLetter (Case.lowerAscii c) = true := by
  rcases lowerAscii_cases c with ⟨same, -⟩ | ⟨-, -, low, high⟩
  · rwa [same]
  · exact isLetter_of_small low high

theorem isSchemeChar_lowerAscii {c : Char} (h : isSchemeChar c = true) :
    isSchemeChar (Case.lowerAscii c) = true := by
  rcases lowerAscii_cases c with ⟨same, -⟩ | ⟨-, -, low, high⟩
  · rwa [same]
  · simp [isSchemeChar, isLetter_of_small low high]

theorem lowerAscii_lowerAscii (c : Char) :
    Case.lowerAscii (Case.lowerAscii c) = Case.lowerAscii c := by
  rcases lowerAscii_cases (Case.lowerAscii c) with ⟨same, -⟩ | ⟨low, high, -⟩
  · exact same
  · rcases lowerAscii_cases c with ⟨same, small⟩ | ⟨-, -, small, -⟩
    · rw [same] at low high
      exact absurd ⟨low, high⟩ small
    · have above : 97 ≤ (Case.lowerAscii c).toNat := small
      have below : (Case.lowerAscii c).toNat ≤ 90 := high
      omega

/-- What is no letter in lower case was none before. -/
theorem eq_of_lowerAscii {c d : Char} (h : Case.lowerAscii c = d) (small : d < 'a') : c = d := by
  rcases lowerAscii_cases c with ⟨same, -⟩ | ⟨-, -, low, -⟩
  · exact same.symm.trans h
  · rw [h] at low
    exact absurd low (Nat.not_le.mpr small)

theorem splitScheme?_isScheme {cs scheme rest : List Char}
    (h : splitScheme? cs = some (scheme, rest)) : IsScheme scheme := by
  simp only [splitScheme?, Option.bind_eq_bind, Option.bind_eq_some_iff] at h
  obtain ⟨⟨written, after⟩, -, h⟩ := h
  split at h
  · rename_i allowed
    rw [Bool.and_eq_true] at allowed
    cases h
    refine ⟨?_, ?_, ?_⟩
    · cases written with
      | nil => cases allowed.1
      | cons c cs => exact isLetter_lowerAscii allowed.1
    · rw [List.all_map, List.all_eq_true]
      exact fun c hc => isSchemeChar_lowerAscii (List.all_eq_true.mp allowed.2 c hc)
    · rw [List.map_map]
      exact List.map_congr_left fun c _ => lowerAscii_lowerAscii c
  · cases h

/-- A scheme is all that stands before the first colon. -/
theorem splitScheme?_colon {before after scheme rest : List Char} (colon : ':' ∉ before)
    (h : splitScheme? (before ++ ':' :: after) = some (scheme, rest)) :
    scheme = before.map Case.lowerAscii ∧ rest = after := by
  rw [splitScheme?, Split.first?_eq_some.mpr ⟨rfl, colon⟩] at h
  simp only [Option.bind_eq_bind, Option.bind_some] at h
  split at h
  · cases h
    exact ⟨rfl, rfl⟩
  · cases h

theorem IsScheme.visible {scheme : List Char} (h : IsScheme scheme) : Visible scheme := by
  intro c hc
  have allowed := List.all_eq_true.mp h.chars c hc
  simp only [isSchemeChar, isLetter, Bool.or_eq_true, Bool.and_eq_true, decide_eq_true_eq,
    List.mem_cons, List.not_mem_nil, or_false, le_iff_toNat] at allowed
  rcases allowed with ((small | capital) | digit) | rfl | rfl | rfl
  · have low : 97 ≤ c.toNat := small.1
    omega
  · have low : 65 ≤ c.toNat := capital.1
    omega
  · have low : 48 ≤ c.toNat := digit.1
    omega
  all_goals decide

/-- A scheme reads back, up to its colon. -/
theorem IsScheme.split {scheme : List Char} (h : IsScheme scheme) (rest : List Char) :
    splitScheme? (scheme ++ ':' :: rest) = some (scheme, rest) := by
  have colon : ':' ∉ scheme := fun hc =>
    absurd (List.all_eq_true.mp h.chars ':' hc) (by decide)
  rw [splitScheme?, Split.first?_eq_some.mpr ⟨rfl, colon⟩]
  simp only [Option.bind_eq_bind, Option.bind_some, h.first, h.chars, h.lower]
  rfl

/-! ## Paths -/

/-- Directories of which nothing is left to encode. -/
def PathSettled (dirs : List (List Char)) : Prop :=
  ∀ d ∈ dirs, Percent.Settled Percent.isPath d

theorem mem_leave {d : List Char} {dirs : List (List Char)} (h : d ∈ leave dirs) : d ∈ dirs := by
  unfold leave at h
  split at h
  · exact h
  · split at h
    · exact h
    · exact List.mem_cons_of_mem _ h

/-- A directory that is left by resolving was entered before, is empty, or is a segment that
is not a dot segment. -/
theorem forall_mem_resolve {p : List Char → Prop} {dirs segments : List (List Char)} (empty : p [])
    (entered : ∀ s ∈ segments, ¬ isDots s = true → ¬ isDot s = true →
      p (Percent.encode Percent.isPath s)) (h : ∀ d ∈ dirs, p d) :
    ∀ d ∈ resolve dirs segments, p d := by
  have below {dirs : List (List Char)} (h : ∀ d ∈ dirs, p d) : ∀ d ∈ leave dirs, p d :=
    fun d hd => h d (mem_leave hd)
  have closed {last : List Char} {dirs : List (List Char)} (hl : p last) (h : ∀ d ∈ dirs, p d) :
      ∀ d ∈ (last :: dirs).reverse, p d :=
    fun d hd => List.forall_mem_cons.mpr ⟨hl, h⟩ d (List.mem_reverse.mp hd)
  fun_induction resolve dirs segments with
  | case1 dirs => exact fun d hd => h d (List.mem_reverse.mp hd)
  | case2 dirs s _ => exact closed empty (below h)
  | case3 dirs s _ _ => exact closed empty h
  | case4 dirs s dots dot => exact closed (entered s List.mem_cons_self dots dot) h
  | case5 dirs s more _ _ ih =>
    exact ih (fun t ht => entered t (List.mem_cons_of_mem s ht)) (below h)
  | case6 dirs s more _ _ _ ih => exact ih (fun t ht => entered t (List.mem_cons_of_mem s ht)) h
  | case7 dirs s more _ dots dot ih =>
    exact ih (fun t ht => entered t (List.mem_cons_of_mem s ht))
      (List.forall_mem_cons.mpr ⟨entered s List.mem_cons_self dots dot, h⟩)

theorem PathSettled.resolve {dirs : List (List Char)} (segments : List (List Char))
    (h : PathSettled dirs) : PathSettled (resolve dirs segments) :=
  forall_mem_resolve (fun _ hc => absurd hc List.not_mem_nil)
    (fun s _ _ _ => Percent.encode_settled Percent.isPath_admits s) h

/-- A path as reading leaves it: empty or behind a slash, and nothing in it left to encode. -/
structure IsPath (path : List Char) : Prop where
  settled : Percent.Settled Percent.isPath path
  slash : ∀ c ∈ path.head?, c = '/'

theorem readPath_cases (cs : List Char) : readPath cs = [] ∨
    ∃ rest, readPath cs = (resolve [] (Split.pieces '/' rest)).flatMap ('/' :: ·) := by
  unfold readPath
  split
  · exact .inl rfl
  · exact .inr ⟨_, rfl⟩
  · exact .inr ⟨_, rfl⟩

theorem readPath_isPath (cs : List Char) : IsPath (readPath cs) := by
  rcases readPath_cases cs with empty | ⟨rest, written⟩
  · rw [empty]
    exact ⟨fun c hc => absurd hc List.not_mem_nil, fun c hc => by cases hc⟩
  · have settled : PathSettled (resolve [] (Split.pieces '/' rest)) :=
      PathSettled.resolve _ fun d hd => absurd hd List.not_mem_nil
    rw [written]
    refine ⟨fun c hc => ?_, fun c hc => ?_⟩
    · obtain ⟨d, hd, found⟩ := List.mem_flatMap.mp hc
      rcases List.mem_cons.mp found with rfl | inside
      · decide
      · exact settled d hd c inside
    · cases dirs : resolve [] (Split.pieces '/' rest) with
      | nil => rw [dirs] at hc; cases hc
      | cons d more => rw [dirs] at hc; cases hc; rfl

/-- Only a point or `%` begins a dot segment. -/
theorem isDot_cons {c : Char} (plain : c ≠ '.') (sign : c ≠ '%') (cs : List Char) :
    isDot (c :: cs) = false := by
  have encoded : Case.lowerAscii c ≠ '%' := by
    rcases lowerAscii_cases c with ⟨same, -⟩ | ⟨-, -, low, -⟩
    · rwa [same]
    · intro e
      rw [e] at low
      exact absurd low (by decide)
  simp [isDot, plain, encoded]

/-- A path of one name without a dot is read as it is. -/
theorem readPath_name {name : List Char} (settled : Percent.Settled Percent.isPath name)
    (h : ∀ c ∈ name, c ≠ '/' ∧ c ≠ '.' ∧ c ≠ '%') : readPath ('/' :: name) = '/' :: name := by
  have slash : '/' ∉ name := fun hc => (h '/' hc).1 rfl
  have dot : isDot name = false := by
    cases name with
    | nil => rfl
    | cons c cs => exact isDot_cons (h c List.mem_cons_self).2.1 (h c List.mem_cons_self).2.2 cs
  have dots : isDots name = false := by
    unfold isDots
    split
    · exact absurd rfl (h '.' List.mem_cons_self).2.1
    · rename_i a b c rest _
      rw [isDot_cons (h a List.mem_cons_self).2.1 (h a List.mem_cons_self).2.2]
      rfl
    · rfl
  have resolved : resolve [] [name] = [name] := by
    rw [resolve, dots, dot, settled.encode_eq]
    rfl
  simp only [readPath, Split.pieces_single slash, resolved]
  simp

/-- A path that is a number is read as it is. -/
theorem readPath_number {n : Int} (hn : 0 ≤ n) :
    readPath ('/' :: (toString n).toList) = '/' :: (toString n).toList := by
  rw [Integer.toList_toString hn]
  exact readPath_name (Integer.forall_mem_toDigits (by decide) n.toNat)
    (Integer.forall_mem_toDigits (by decide) n.toNat)

end NamedStores.Url
