/-
Tokens as they are written. Where no token runs into the text behind it, scanning a written list of
tokens gives that list (`scan_written`), its parameters counted from one on. A name in quotes is one
token whatever its characters are: a quote among them is written twice, and so it does not close.
-/
import NamedStores.Proofs.Text.Split
import NamedStores.Sqlite.Phrase
import NamedStores.Sqlite.Token

namespace NamedStores.Sqlite.Token

/-- The text of tokens with what stands before each. -/
def written (ts : List Token) : List Char := ts.flatMap fun t => t.gap ++ t.chars

theorem written_cons (t : Token) (ts : List Token) :
    written (t :: ts) = t.gap ++ t.chars ++ written ts := rfl

theorem written_append (ts us : List Token) : written (ts ++ us) = written ts ++ written us :=
  List.flatMap_append

/-! ## One token -/

/-- What stands before a token of a phrase. -/
def Gap (gap : List Char) : Prop := gap = [] ∨ gap = [' ']

theorem Gap.none : Gap [] := .inl rfl

theorem Gap.space : Gap [' '] := .inr rfl

/-- A character with which no blank and no comment begins. -/
def Opens (c : Char) : Prop := Number.isBlank c = false ∧ c ≠ '-' ∧ c ≠ '/'

instance : DecidablePred Opens := fun _ => inferInstanceAs (Decidable (_ ∧ _))

/-- Before this text the characters are scanned as a token of this kind. -/
def Scans (chars : List Char) (kind : TokenKind) (rest : List Char) : Prop :=
  ∃ c more, chars = c :: more ∧ Opens c ∧ scanOne c (more ++ rest) = (kind, rest)

theorem skipGap_opens {c : Char} (opens : Opens c) (cs : List Char) (fuel : Nat) :
    skipGap fuel (c :: cs) = ([], c :: cs) := by
  obtain ⟨visible, dash, slash⟩ := opens
  cases fuel with
  | zero => rfl
  | succ fuel => simp [skipGap, visible, dash, slash]

theorem skipGap_space {c : Char} (opens : Opens c) (cs : List Char) (fuel : Nat) :
    skipGap (fuel + 1) (' ' :: c :: cs) = ([' '], c :: cs) := by
  have blank : Number.isBlank ' ' = true := by decide
  simp [skipGap, blank, skipGap_opens opens]

/-- The next token is scanned, whatever comes behind it. -/
theorem scanAll_scans {gap chars rest : List Char} {kind : TokenKind}
    (isGap : Gap gap) (scans : Scans chars kind rest) (fuel : Nat) :
    scanAll (fuel + 1) (gap ++ chars ++ rest) = ⟨gap, chars, kind⟩ :: scanAll fuel rest := by
  obtain ⟨c, more, rfl, opens, scanned⟩ := scans
  have skipped : skipGap (gap ++ c :: more ++ rest).length (gap ++ c :: more ++ rest) =
      (gap, c :: (more ++ rest)) := by
    rcases isGap with rfl | rfl
    · exact skipGap_opens opens _ _
    · exact skipGap_space opens _ _
  have taken : (c :: (more ++ rest)).take ((c :: (more ++ rest)).length - rest.length) =
      c :: more := by
    rw [← List.cons_append, List.length_append, Nat.add_sub_cancel, List.take_left]
  simp only [scanAll, skipped, scanned, taken]

/-! ## Lists of tokens -/

/-- The token without the number that its parameter was given. -/
def uncounted (t : Token) : Token :=
  match t.kind with
  | .parameter _ => { t with kind := .parameter none }
  | _ => t

/-- Each token is scanned as it is where it stands, but for the number that its parameter has. -/
inductive Spelled : List Token → Prop
  | nil : Spelled []
  | cons {t : Token} {ts : List Token} : Gap t.gap → t.kind ≠ .parameter none →
    Scans t.chars t.uncounted.kind (written ts) → Spelled ts → Spelled (t :: ts)

theorem uncounted_eq (t : Token) : t.uncounted = ⟨t.gap, t.chars, t.uncounted.kind⟩ := by
  unfold uncounted
  split <;> rfl

theorem Spelled.scanAll {ts : List Token} (spelled : Spelled ts) :
    ∀ fuel, (written ts).length ≤ fuel → scanAll fuel (written ts) = ts.map uncounted := by
  induction spelled with
  | nil => intro fuel _; cases fuel <;> rfl
  | @cons t ts isGap _ scans _ ih =>
    intro fuel enough
    obtain ⟨c, more, chars, -, -⟩ := id scans
    rw [written_cons, List.length_append, List.length_append, chars, List.length_cons] at enough
    cases fuel with
    | zero => omega
    | succ fuel =>
      rw [written_cons, scanAll_scans isGap scans, ih fuel (by omega), List.map_cons,
        ← uncounted_eq]

/-- The number of a parameter. -/
def number? (t : Token) : Option Nat :=
  match t.kind with
  | .parameter index => index
  | _ => none

theorem Spelled.countParameters {ts : List Token} (spelled : Spelled ts) :
    ∀ before count, ts.filterMap number? = List.range' (before + 1) count →
      countParameters before (ts.map uncounted) = ts := by
  induction spelled with
  | nil => exact fun _ _ _ => rfl
  | @cons t ts _ counted _ _ ih =>
    intro before count numbers
    obtain ⟨gap, chars, kind⟩ := t
    cases kind with
    | parameter index =>
      cases index with
      | none => exact absurd rfl counted
      | some n =>
        have parts : (⟨gap, chars, .parameter (some n)⟩ :: ts : List Token).filterMap number? =
            n :: ts.filterMap number? := rfl
        rw [parts] at numbers
        cases count with
        | zero => cases numbers
        | succ count =>
          rw [List.range'_succ] at numbers
          obtain ⟨rfl, following⟩ := List.cons.inj numbers
          have same := ih (before + 1) count following
          simp only [List.map_cons, uncounted, Token.countParameters, if_true, same]
    | _ =>
      have same := ih before count numbers
      simp only [List.map_cons, uncounted, Token.countParameters, reduceCtorEq, if_false, same]

/-- **Written tokens are scanned as they are**, their parameters counted from one on. -/
theorem scan_written {ts : List Token} (spelled : Spelled ts) {count : Nat}
    (numbers : ts.filterMap number? = List.range' 1 count) {sql : String}
    (text : sql.toList = written ts) : scan sql = ts := by
  rw [scan, text, spelled.scanAll _ (Nat.le_refl _)]
  exact spelled.countParameters 0 count numbers

/-! ## Words, quoted names and signs -/

/-- Text behind which a word, a name or a parameter ends. -/
def Ends (rest : List Char) : Prop := ∀ c ∈ rest.head?, c = ' ' ∨ c = ',' ∨ c = ')'

theorem Ends.nil : Ends [] := by simp [Ends]

theorem Ends.space (rest : List Char) : Ends (' ' :: rest) := by simp [Ends]

theorem Ends.comma (rest : List Char) : Ends (',' :: rest) := by simp [Ends]

theorem Ends.closing (rest : List Char) : Ends (')' :: rest) := by simp [Ends]

theorem Ends.head_ne {rest : List Char} (ends : Ends rest) {c : Char}
    (other : c ≠ ' ' ∧ c ≠ ',' ∧ c ≠ ')') : rest.head? ≠ some c := by
  intro head
  rcases ends c head with rfl | rfl | rfl <;> simp at other

/-- A test that fails of each sign that ends a word takes nothing of the text behind it. -/
theorem Ends.breaks {rest : List Char} (ends : Ends rest) {goesOn : Char → Bool}
    (stops : goesOn ' ' = false ∧ goesOn ',' = false ∧ goesOn ')' = false) :
    rest.takeWhile goesOn = [] ∧ rest.dropWhile goesOn = rest := by
  cases rest with
  | nil => exact ⟨rfl, rfl⟩
  | cons c rest =>
    have stopped : goesOn c = false := by
      rcases ends c rfl with rfl | rfl | rfl
      · exact stops.1
      · exact stops.2.1
      · exact stops.2.2
    simp [stopped]

theorem opens_of_startsWord {c : Char} (starts : startsWord c = true) : Opens c := by
  have large : 'A'.toNat ≤ c.toNat := by
    simp only [startsWord, Bool.or_eq_true, Bool.and_eq_true, decide_eq_true_eq] at starts
    rcases starts with ((⟨small, -⟩ | ⟨capital, -⟩) | rfl) | high
    · exact Nat.le_trans (by decide) (UInt32.le_iff_toNat_le.mp (Char.le_def.mp small))
    · exact UInt32.le_iff_toNat_le.mp (Char.le_def.mp capital)
    · decide
    · exact Nat.le_trans (by decide) high
  have other : ∀ d : Char, d.toNat < 'A'.toNat → c ≠ d := by
    rintro d small rfl
    omega
  refine ⟨?_, other '-' (by decide), other '/' (by decide)⟩
  have high : ¬c.toNat ≤ 13 := fun low => absurd (Nat.le_trans large low) (by decide)
  simp [Number.isBlank, other ' ' (by decide), high]

theorem scanOne_word {c : Char} {more rest : List Char} (starts : startsWord c = true)
    (goesOn : ∀ d ∈ more, continuesWord d = true) (ends : Ends rest) :
    scanOne c (more ++ rest) = (.word, rest) := by
  have dropped : (more ++ rest).dropWhile continuesWord = rest := by
    rw [List.dropWhile_append_of_pos goesOn]
    exact (ends.breaks (by decide)).2
  -- a letter with a quote behind it would begin a blob
  have unquoted : ∀ cs, more ++ rest ≠ '\'' :: cs := by
    intro cs same
    cases more with
    | nil => exact ends.head_ne (by decide) (congrArg List.head? same)
    | cons d more =>
      rw [List.cons_append, List.cons.injEq] at same
      exact absurd (same.1 ▸ goesOn d List.mem_cons_self) (by decide)
  unfold scanOne
  split
  case h_4 same => exact absurd same (unquoted _)
  case h_5 same => exact absurd same (unquoted _)
  case h_8 => rw [if_pos starts, dropped]
  all_goals exact absurd starts (by decide)

theorem Scans.word {w : String} {rest : List Char} {c : Char} {more : List Char}
    (chars : w.toList = c :: more) (starts : startsWord c = true)
    (goesOn : ∀ d ∈ more, continuesWord d = true) (ends : Ends rest) :
    Scans w.toList .word rest :=
  ⟨c, more, chars, opens_of_startsWord starts, scanOne_word starts goesOn ends⟩

theorem quoted?_other {close c : Char} (other : c ≠ close) (cs : List Char) :
    quoted? close (c :: cs) = (quoted? close cs).map fun read => (c :: read.1, read.2) := by
  cases cs <;> simp [quoted?, other]

/-- **A quote that is written twice does not close.** -/
theorem quoted?_doubled (close : Char) (name : List Char) {rest : List Char}
    (single : rest.head? ≠ some close) :
    quoted? close ((name.flatMap fun c => if c = close then [close, close] else [c]) ++
      close :: rest) = some (name, rest) := by
  induction name with
  | nil =>
    cases rest with
    | nil => simp [quoted?]
    | cons d rest =>
      have other : d ≠ close := by simpa using single
      simp [quoted?, other]
  | cons c name ih =>
    rw [List.flatMap_cons, List.append_assoc]
    by_cases same : c = close
    · rw [if_pos same, same, List.cons_append, List.cons_append, List.nil_append, quoted?,
        if_pos rfl, if_pos rfl, ih]
      rfl
    · rw [if_neg same, List.cons_append, List.nil_append, quoted?_other same, ih]
      rfl

theorem Scans.quoted (name : String) {rest : List Char} (ends : Ends rest) :
    Scans (Phrase.quoted name).toList (.name name true) rest := by
  have read := quoted?_doubled '"' name.toList (ends.head_ne (by decide))
  refine ⟨'"', _, by rw [Phrase.quoted, String.toList_ofList, List.cons_append], by decide, ?_⟩
  rw [List.append_assoc, List.cons_append, List.nil_append, scanOne, scanQuoted, read]
  simp only [String.ofList_toList]

theorem Scans.parameter {rest : List Char} (ends : Ends rest) :
    Scans ['?'] (.parameter none) rest := by
  have digits : rest.takeWhile Integer.isDigit = [] := (ends.breaks (by decide)).1
  refine ⟨'?', [], rfl, by decide, ?_⟩
  rw [List.nil_append, scanOne, digits]
  rfl

/-- The signs that are symbols whatever follows them. -/
theorem Scans.sign {c : Char} (sign : c ∈ [',', '(', ')', '*']) (rest : List Char) :
    Scans [c] .symbol rest := by
  simp only [List.mem_cons, List.not_mem_nil, or_false] at sign
  rcases sign with rfl | rfl | rfl | rfl <;> exact ⟨_, [], rfl, by decide, rfl⟩

theorem Scans.equals (rest : List Char) : Scans ['='] .symbol (' ' :: rest) :=
  ⟨'=', [], rfl, by decide, rfl⟩

/-! ## The tokens of a phrase -/

def keyword (gap : List Char) (w : String) : Token := ⟨gap, w.toList, .word⟩

def named (gap : List Char) (name : String) : Token :=
  ⟨gap, (Phrase.quoted name).toList, .name name true⟩

def bound (gap : List Char) (index : Nat) : Token := ⟨gap, ['?'], .parameter (some index)⟩

def sign (gap : List Char) (c : Char) : Token := ⟨gap, [c], .symbol⟩

/-- A word that is scanned as one. -/
def isOneWord : List Char → Bool
  | c :: more => startsWord c && more.all continuesWord
  | [] => false

theorem Spelled.keyword {gap : List Char} {w : String} {ts : List Token} (isGap : Gap gap)
    (isOne : isOneWord w.toList = true) (spelled : Spelled ts) (ends : Ends (written ts)) :
    Spelled (keyword gap w :: ts) := by
  cases chars : w.toList with
  | nil => simp [isOneWord, chars] at isOne
  | cons c more =>
    simp only [isOneWord, chars, Bool.and_eq_true] at isOne
    have scans := Scans.word chars isOne.1 (List.all_eq_true.mp isOne.2) ends
    exact .cons isGap TokenKind.noConfusion scans spelled

theorem Spelled.named {gap : List Char} {ts : List Token} (isGap : Gap gap) (name : String)
    (spelled : Spelled ts) (ends : Ends (written ts)) : Spelled (named gap name :: ts) :=
  .cons isGap TokenKind.noConfusion (.quoted name ends) spelled

theorem Spelled.bound {gap : List Char} {ts : List Token} (isGap : Gap gap) (index : Nat)
    (spelled : Spelled ts) (ends : Ends (written ts)) : Spelled (bound gap index :: ts) :=
  .cons isGap (by simp [Token.bound]) (.parameter ends) spelled

theorem Spelled.sign {gap : List Char} {c : Char} {ts : List Token} (isGap : Gap gap)
    (isSign : c ∈ [',', '(', ')', '*']) (spelled : Spelled ts) : Spelled (sign gap c :: ts) :=
  .cons isGap TokenKind.noConfusion (.sign isSign _) spelled

theorem Spelled.equals {t : Token} {ts : List Token} (space : t.gap = [' '])
    (spelled : Spelled (t :: ts)) : Spelled (Token.sign [' '] '=' :: t :: ts) := by
  refine .cons .space TokenKind.noConfusion ?_ spelled
  rw [written_cons, space]
  exact .equals _

/-! ## Lists with commas -/

variable {α : Type}

/-- Things of a phrase with commas between them, each but the first after a blank. -/
def listed (item : List Char → α → List Token) (gap : List Char) : List α → List Token
  | [] => []
  | [x] => item gap x
  | x :: y :: xs => item gap x ++ sign [] ',' :: listed item [' '] (y :: xs)

/-- Tokens that are scanned as they are before all that ends them. -/
def Joins (ts : List Token) : Prop :=
  ∀ us, Spelled us → Ends (written us) → Spelled (ts ++ us)

theorem Joins.listed {item : List Char → α → List Token} {xs : List α}
    (items : ∀ x ∈ xs, ∀ gap, Gap gap → Joins (item gap x)) {gap : List Char} (isGap : Gap gap) :
    Joins (listed item gap xs) := by
  fun_induction Token.listed item gap xs with
  | case1 => exact fun _ spelled _ => spelled
  | case2 gap x => exact items x List.mem_cons_self gap isGap
  | case3 gap x y xs ih =>
    intro us spelled ends
    have later := ih (fun z hz => items z (List.mem_cons_of_mem x hz)) .space us spelled ends
    rw [List.append_assoc]
    refine items x List.mem_cons_self gap isGap _ ?_ (Ends.comma _)
    exact .sign .none (by decide) later

/-- The text of a list is that of its things, joined by commas. -/
theorem written_listed {item : List Char → α → List Token} {text : α → String} {xs : List α}
    (items : ∀ x ∈ xs, ∀ gap, written (item gap x) = gap ++ (text x).toList) (gap : List Char)
    (nonempty : xs ≠ []) :
    written (listed item gap xs) = gap ++ (Phrase.commas (xs.map text)).toList := by
  rw [Phrase.commas, String.toList_intercalate]
  fun_induction listed item gap xs with
  | case1 => exact absurd rfl nonempty
  | case2 gap x => simp [items x List.mem_cons_self]
  | case3 gap x y xs ih =>
    have later := ih (fun z hz => items z (List.mem_cons_of_mem x hz)) (List.cons_ne_nil y xs)
    rw [written_append, written_cons, later, items x List.mem_cons_self]
    simp only [List.map_cons, List.intercalate_cons_cons, List.append_assoc]
    rfl

/-- The numbers in a list are those in its things. -/
theorem numbers_listed {item : List Char → α → List Token} {numbers : α → List Nat}
    (items : ∀ gap x, (item gap x).filterMap number? = numbers x) (gap : List Char) (xs : List α) :
    (listed item gap xs).filterMap number? = xs.flatMap numbers := by
  fun_induction listed item gap xs with
  | case1 => rfl
  | case2 gap x => simp [items]
  | case3 gap x y xs ih =>
    rw [List.filterMap_append, List.filterMap_cons_none rfl, ih, items]
    rfl

end NamedStores.Sqlite.Token
