/-
What can be read can be passed over, and ends at the same place. Passing over is done by a reader
of its own: it takes a number without its value and a string without its text, does not look for
the other half of a pair, and keeps a stack of the containers that are open in place of calling
itself. What a value asks of that stack does not depend on what lies below; and since passing
over uses up less fuel than two for each octet, the fuel given to it is enough.
-/
import Mathlib.Data.List.DropRight
import NamedStores.Json.Shape
import NamedStores.Proofs.Json.Null

namespace NamedStores.Json

/-! ## Blanks and words -/

theorem skipBlanks_skipBlanks (bs : Bytes) : skipBlanks (skipBlanks bs) = skipBlanks bs :=
  List.dropWhile_idempotent _ bs

theorem skipBlanks_suffix (bs : Bytes) : skipBlanks bs <:+ bs := List.dropWhile_suffix _

theorem length_skipBlanks {b : UInt8} {bs rest : Bytes} (next : skipBlanks bs = b :: rest) :
    rest.length + 1 ≤ bs.length := by
  have shorter := (skipBlanks_suffix bs).length_le
  rwa [next] at shorter

theorem word_suffix {cs : List Char} {bs rest : Bytes} (h : word cs bs = .ok rest) : rest <:+ bs := by
  induction cs generalizing bs with
  | nil =>
    cases h
    exact List.suffix_refl _
  | cons c cs ih =>
    cases bs with
    | nil => cases h
    | cons b bs =>
      rw [word] at h
      split at h
      · exact (ih h).trans (List.suffix_cons b bs)
      · cases h

/-! ## Numbers -/

namespace Number

theorem float_rest {negative : Bool} {sig : Nat} {e : Int} {bs rest : Bytes} {v : Json}
    (h : float negative sig e bs = .ok (v, rest)) : rest = bs := by
  unfold float at h
  split at h
  · cases h
    rfl
  · cases h

/-- The digits of an exponent end where they end, also where they leave their bounds on the way. -/
theorem exponentDigits_end (e : Nat) (bs : Bytes) :
    (∀ n rest, exponentDigits e bs = .ok (n, rest) → rest = (spanDigits bs).2) ∧
      ∀ rest, exponentDigits e bs = .error rest → (spanDigits rest).2 = (spanDigits bs).2 := by
  induction bs generalizing e with
  | nil =>
    refine ⟨fun n rest h => ?_, fun rest h => ?_⟩ <;> cases h
    rfl
  | cons b bs ih =>
    have span : (spanDigits (b :: bs)).2 = if isDigit b then (spanDigits bs).2 else b :: bs := by
      rw [spanDigits, List.dropWhile_cons]
      rfl
    rw [exponentDigits, span]
    by_cases hb : isDigit b = true
    · rw [if_pos hb, if_pos hb]
      split
      · refine ⟨fun n rest h => ?_, fun rest h => ?_⟩ <;> cases h
        rfl
      · exact ih _
    · rw [if_neg hb, if_neg hb]
      refine ⟨fun n rest h => ?_, fun rest h => ?_⟩ <;> cases h
      rfl

/-- Passes over what may follow the point. -/
def passPart (bs : Bytes) : Except Fault Bytes :=
  match spanDigits bs with
  | ([], more) => lookFault .invalidNumber more
  | (_, more) => passAfterPart more

/-- Passes over what may follow the digits before the point. -/
def passAfterWhole (bs : Bytes) : Except Fault Bytes :=
  match bs with
  | c :: more => if asChar c = '.' then passPart more else passAfterPart bs
  | [] => .ok []

theorem pass_cons (b : UInt8) (rest : Bytes) : pass (b :: rest) =
    if !isDigit b then hereFault .invalidNumber rest
    else if asChar b = '0' && (rest.head?.any isDigit) then lookFault .invalidNumber rest
    else passAfterWhole (spanDigits rest).2 := rfl

/-- An exponent without its sign. -/
def withoutSign (bs : Bytes) : Bytes :=
  match bs with
  | b :: rest => if asChar b = '+' || asChar b = '-' then rest else bs
  | [] => bs

/-- What is read of an exponent once its sign is known. -/
def afterSign (down negative : Bool) (sig : Nat) (start : Int) (bs : Bytes) : Step Json :=
  match bs with
  | [] => hereFault .endOfValue []
  | b :: rest =>
    if !isDigit b then hereFault .invalidNumber rest
    else
      match exponentDigits (digit b) rest with
      | .ok (e, rest) => float negative sig (if down then start - e else start + e) rest
      | .error rest =>
        if sig ≠ 0 ∧ !down then hereFault .numberOutOfRange rest
        else .ok (.float (Double.zero negative), (spanDigits rest).2)

theorem exponent_eq (negative : Bool) (sig : Nat) (start : Int) (bs : Bytes) :
    ∃ down, exponent negative sig start bs = afterSign down negative sig start (withoutSign bs) := by
  cases bs with
  | nil => exact ⟨false, rfl⟩
  | cons b bs =>
    unfold exponent
    by_cases plus : asChar b = '+'
    · refine ⟨false, ?_⟩
      simp only [withoutSign, plus, decide_true, Bool.true_or, if_true]
      rfl
    by_cases minus : asChar b = '-'
    · have other : ¬ '-' = '+' := by decide
      refine ⟨true, ?_⟩
      simp only [withoutSign, minus, if_neg other, decide_true, Bool.or_true, if_true]
      rfl
    · refine ⟨false, ?_⟩
      simp only [withoutSign, plus, minus, decide_false, Bool.or_false, Bool.false_eq_true, if_false]
      rfl

theorem passExponent_eq (bs : Bytes) : passExponent bs = match withoutSign bs with
    | [] => hereFault .invalidNumber []
    | b :: rest => if isDigit b then .ok (spanDigits rest).2 else hereFault .invalidNumber rest := rfl

theorem exponent_passed {negative : Bool} {sig : Nat} {start : Int} {bs rest : Bytes} {v : Json}
    (h : exponent negative sig start bs = .ok (v, rest)) : passExponent bs = .ok rest := by
  obtain ⟨down, read⟩ := exponent_eq negative sig start bs
  rw [read] at h
  unfold afterSign at h
  rw [passExponent_eq]
  cases unsigned : withoutSign bs with
  | nil =>
    rw [unsigned] at h
    cases h
  | cons b more =>
    rw [unsigned] at h
    dsimp only at h ⊢
    split at h
    · cases h
    next digits =>
    obtain ⟨ended, broken⟩ := exponentDigits_end (digit b) more
    rw [if_pos (by simpa using digits)]
    split at h
    · next e left read => rw [float_rest h, ended e left read]
    · next left read =>
      rw [← broken left read]
      split at h
      · cases h
      · cases h
        rfl

theorem part_passed {negative : Bool} {sig dropped : Nat} {bs rest : Bytes} {v : Json}
    (h : part negative sig dropped bs = .ok (v, rest)) : passPart bs = .ok rest := by
  rw [part] at h
  rw [passPart]
  split at h
  · cases h
  · cases h
  next ds more _ some span =>
  rw [span]
  cases ds with
  | nil => exact absurd rfl some
  | cons d ds =>
    dsimp only at h ⊢
    cases more with
    | nil =>
      rw [float_rest h]
      rfl
    | cons b more =>
      rw [passAfterPart]
      dsimp only at h ⊢
      split at h
      · next mark =>
        rw [if_pos mark]
        exact exponent_passed h
      · next mark =>
        rw [if_neg mark, float_rest h]

theorem afterWhole_passed {negative : Bool} {sig dropped : Nat} {bs rest : Bytes} {v : Json}
    (h : afterWhole negative sig dropped bs = .ok (v, rest)) : passAfterWhole bs = .ok rest := by
  have plain {bs : Bytes} (h : (if dropped = 0 then .ok (integer negative sig, bs)
      else float negative sig dropped bs) = .ok (v, rest)) : rest = bs := by
    split at h
    · cases h
      rfl
    · exact float_rest h
  unfold afterWhole at h
  cases bs with
  | nil =>
    rw [plain h]
    rfl
  | cons b bs =>
    rw [passAfterWhole]
    dsimp only at h
    split at h
    · next point =>
      rw [if_pos point]
      exact part_passed h
    · next point =>
      rw [if_neg point, passAfterPart]
      split at h
      · next mark =>
        rw [if_pos mark]
        exact exponent_passed h
      · next mark =>
        rw [if_neg mark, plain h]

/-- A number that is read ends where it is passed over. -/
theorem read_passed {negative : Bool} {bs rest : Bytes} {v : Json}
    (h : read negative bs = .ok (v, rest)) : pass bs = .ok rest := by
  cases bs with
  | nil => cases h
  | cons b bs =>
    unfold read at h
    rw [pass_cons]
    dsimp only at h
    split at h
    · next zero =>
      obtain rfl : b = 0x30 := (asChar_eq_iff (by decide)).1 zero
      have digit : isDigit 0x30 = true := rfl
      cases bs with
      | nil => exact afterWhole_passed h
      | cons c bs =>
        dsimp only at h
        split at h
        · cases h
        next other =>
        have stop : (spanDigits (c :: bs)).2 = c :: bs := List.dropWhile_cons_of_neg other
        have none : (c :: bs).head?.any isDigit = false := by simpa using other
        simp only [digit, Bool.not_true, Bool.false_eq_true, if_false, none, Bool.and_false, stop]
        exact afterWhole_passed h
    split at h
    · next zero digits =>
      simp only [digits, Bool.not_true, Bool.false_eq_true, if_false, zero, decide_false,
        Bool.false_and]
      exact afterWhole_passed h
    · cases h

/-! ### What is left is shorter -/

theorem spanDigits_suffix (bs : Bytes) : (spanDigits bs).2 <:+ bs := List.dropWhile_suffix _

theorem withoutSign_suffix (bs : Bytes) : withoutSign bs <:+ bs := by
  unfold withoutSign
  split
  · split
    · exact List.suffix_cons _ _
    · exact List.suffix_refl _
  · exact List.suffix_refl _

theorem passExponent_suffix {bs rest : Bytes} (h : passExponent bs = .ok rest) : rest <:+ bs := by
  rw [passExponent_eq] at h
  have unsigned := withoutSign_suffix bs
  split at h
  · cases h
  next b more same =>
  split at h
  · cases h
    rw [same] at unsigned
    exact ((spanDigits_suffix more).trans (List.suffix_cons b more)).trans unsigned
  · cases h

theorem passAfterPart_suffix {bs rest : Bytes} (h : passAfterPart bs = .ok rest) : rest <:+ bs := by
  unfold passAfterPart at h
  split at h
  · split at h
    · exact (passExponent_suffix h).trans (List.suffix_cons _ _)
    · cases h
      exact List.suffix_refl _
  · cases h
    exact List.suffix_refl _

theorem passPart_suffix {bs rest : Bytes} (h : passPart bs = .ok rest) : rest <:+ bs := by
  unfold passPart at h
  split at h
  · cases h
  · next more _ span =>
    have digits := spanDigits_suffix bs
    rw [span] at digits
    exact (passAfterPart_suffix h).trans digits

theorem passAfterWhole_suffix {bs rest : Bytes} (h : passAfterWhole bs = .ok rest) :
    rest <:+ bs := by
  unfold passAfterWhole at h
  split at h
  · split at h
    · exact (passPart_suffix h).trans (List.suffix_cons _ _)
    · exact passAfterPart_suffix h
  · cases h
    exact List.suffix_refl _

theorem length_pass {bs rest : Bytes} (h : pass bs = .ok rest) : rest.length < bs.length := by
  cases bs with
  | nil => cases h
  | cons b bs =>
    rw [pass_cons] at h
    split at h
    · cases h
    split at h
    · cases h
    have shorter := ((passAfterWhole_suffix h).trans (spanDigits_suffix bs)).length_le
    rw [List.length_cons]
    omega

end Number

/-! ## Strings -/

theorem length_hexEscape {bs rest : Bytes} {n : Nat} (h : hexEscape bs = .ok (n, rest)) :
    rest.length < bs.length := by
  unfold hexEscape at h
  split at h
  · split at h
    · cases h
      simp only [List.length_cons]
      omega
    · cases h
  · cases h

/-- The other half of a pair is an escape of its own. -/
theorem lowSurrogate_passed {high n : Nat} {bs rest : Bytes}
    (h : lowSurrogate high bs = .ok (n, rest)) :
    ∃ b more, bs = b :: more ∧ asChar b = '\\' ∧ passEscape more = .ok rest := by
  unfold lowSurrogate at h
  split at h
  · cases h
  next b more =>
  split at h
  · cases h
  next backslash =>
  split at h
  · cases h
  next c more =>
  split at h
  · cases h
  next mark =>
  have mark : asChar c = 'u' := Decidable.not_not.1 mark
  have long : shortEscape? c = none := by
    rw [shortEscape?, mark]
    rfl
  split at h
  · cases h
  next low left read =>
  split at h
  · cases h
  · cases h
    refine ⟨b, c :: more, rfl, Decidable.not_not.1 backslash, ?_⟩
    rw [passEscape, long]
    dsimp only
    rw [if_pos mark, read]
    rfl

/-- An escape that is read is one that is passed over, or two. -/
theorem unescape_passed {octets bs rest : Bytes} (h : unescape bs = .ok (octets, rest)) :
    passEscape bs = .ok rest ∨ ∃ b more, passEscape bs = .ok (b :: more) ∧ asChar b = '\\' ∧
      passEscape more = .ok rest := by
  unfold unescape at h
  split at h
  · cases h
  next b more =>
  rw [passEscape]
  cases short : shortEscape? b with
  | some e =>
    rw [short] at h
    cases h
    exact .inl rfl
  | none =>
    rw [short] at h
    dsimp only at h ⊢
    split at h
    · next mark =>
      rw [if_pos mark]
      unfold unicodeEscape at h
      split at h
      · cases h
      next n left read =>
      rw [read]
      split at h
      · cases h
      split at h
      · split at h
        · cases h
        next low left' pair =>
        cases h
        obtain ⟨b', more', rfl, backslash, passed⟩ := lowSurrogate_passed pair
        exact .inr ⟨b', more', rfl, backslash, passed⟩
      · cases h
        exact .inl rfl
    · cases h

theorem length_passEscape {bs rest : Bytes} (h : passEscape bs = .ok rest) :
    rest.length < bs.length := by
  cases bs with
  | nil => cases h
  | cons b bs =>
    rw [passEscape] at h
    split at h
    · cases h
      exact Nat.lt_succ_self _
    split at h
    · obtain ⟨⟨n, left⟩, read, same⟩ := map_eq_ok h
      cases same
      exact Nat.lt_succ_of_lt (length_hexEscape read)
    · cases h

theorem passOctets_escape {b : UInt8} (backslash : asChar b = '\\') {bs more : Bytes}
    (escape : passEscape bs = .ok more) (n : Nat) :
    passOctets (n + 1) (b :: bs) = passOctets n more := by
  have other : ¬ asChar b = '"' := by rw [backslash]; decide
  rw [passOctets, if_neg other, if_pos backslash, escape]

/-- By induction on the reader's fuel. The passing reader takes the two escapes of a pair one after
the other, so that its fuel is not the reader's; that there is more of it than octets is enough. -/
theorem stringOctets_passed {fuel : Nat} {seen octets bs rest : Bytes}
    (h : stringOctets fuel seen bs = .ok (octets, rest)) :
    rest.length < bs.length ∧ ∀ n, bs.length < n → passOctets n bs = .ok rest := by
  induction fuel generalizing seen bs with
  | zero => cases h
  | succ fuel ih =>
    cases bs with
    | nil => cases h
    | cons b bs =>
      rw [stringOctets] at h
      split at h
      · next quote =>
        cases h
        refine ⟨Nat.lt_succ_self _, fun n enough => ?_⟩
        obtain ⟨n, rfl⟩ := Nat.exists_eq_succ_of_ne_zero (Nat.ne_of_gt (Nat.zero_lt_of_lt enough))
        rw [passOctets, if_pos quote]
      next other =>
      split at h
      · next backslash =>
        split at h
        · cases h
        next part left read =>
        obtain ⟨shorter, passed⟩ := ih h
        rcases unescape_passed read with one | ⟨b', more, first, backslash', second⟩
        · have taken := length_passEscape one
          refine ⟨by rw [List.length_cons]; omega, fun n enough => ?_⟩
          rw [List.length_cons] at enough
          obtain ⟨n, rfl⟩ : ∃ k, n = k + 1 := ⟨n - 1, by omega⟩
          rw [passOctets_escape backslash one, passed n (by omega)]
        · have taken := length_passEscape first
          have taken' := length_passEscape second
          rw [List.length_cons] at taken
          refine ⟨by rw [List.length_cons]; omega, fun n enough => ?_⟩
          rw [List.length_cons] at enough
          obtain ⟨n, rfl⟩ : ∃ k, n = k + 2 := ⟨n - 2, by omega⟩
          rw [passOctets_escape backslash first, passOctets_escape backslash' second,
            passed n (by omega)]
      next plain =>
      split at h
      · cases h
      next printable =>
      obtain ⟨shorter, passed⟩ := ih h
      refine ⟨Nat.lt_succ_of_lt shorter, fun n enough => ?_⟩
      rw [List.length_cons] at enough
      obtain ⟨n, rfl⟩ : ∃ k, n = k + 1 := ⟨n - 1, by omega⟩
      rw [passOctets, if_neg other, if_neg plain, if_neg printable, passed n (by omega)]

theorem readString_passed {s : String} {bs rest : Bytes} (h : readString bs = .ok (s, rest)) :
    rest.length < bs.length ∧ passString bs = .ok rest := by
  unfold readString at h
  split at h
  · cases h
  next octets left read =>
  split at h
  · cases h
    obtain ⟨shorter, passed⟩ := stringOctets_passed read
    exact ⟨shorter, passed _ (Nat.lt_succ_self _)⟩
  · cases h

/-! ## Values that are no containers -/

/-- Passes over a value that is no container, by its first octet. -/
def passScalar (b : UInt8) (rest : Bytes) : Except Fault Bytes :=
  match asChar b with
  | 'n' => word ['u', 'l', 'l'] rest
  | 't' => word ['r', 'u', 'e'] rest
  | 'f' => word ['a', 'l', 's', 'e'] rest
  | '-' => Number.pass rest
  | '"' => passString rest
  | _ => if isDigit b then Number.pass (b :: rest) else lookFault .expectedValue (b :: rest)

theorem passScalar_number {b : UInt8} {bs : Bytes} (digit : isDigit b = true) :
    passScalar b bs = Number.pass (b :: bs) := by
  have other {c : Char} {d : UInt8} (ascii : c.toNat < 0x80) (octet : UInt8.ofNat c.toNat = d)
      (notDigit : isDigit d = false) : asChar b ≠ c := by
    intro mark
    rw [(asChar_eq_iff ascii).1 mark, octet, notDigit] at digit
    cases digit
  unfold passScalar
  split
  case h_6 => rw [if_pos digit]
  all_goals exact absurd ‹asChar b = _› (other (by decide) rfl rfl)

theorem scalar_passed {b : UInt8} {bs rest : Bytes} {v : Json} (h : scalar b bs = .ok (v, rest)) :
    passScalar b bs = .ok rest ∧ rest.length ≤ bs.length := by
  unfold scalar at h
  split at h
  · next mark =>
    obtain ⟨left, letters, same⟩ := map_eq_ok h
    cases same
    exact ⟨by simp only [passScalar, mark, letters], (word_suffix letters).length_le⟩
  · next mark =>
    obtain ⟨left, letters, same⟩ := map_eq_ok h
    cases same
    exact ⟨by simp only [passScalar, mark, letters], (word_suffix letters).length_le⟩
  · next mark =>
    obtain ⟨left, letters, same⟩ := map_eq_ok h
    cases same
    exact ⟨by simp only [passScalar, mark, letters], (word_suffix letters).length_le⟩
  · next mark =>
    have passed := Number.read_passed h
    exact ⟨by simp only [passScalar, mark, passed], (Number.length_pass passed).le⟩
  · next mark =>
    obtain ⟨⟨s, left⟩, read, same⟩ := map_eq_ok h
    cases same
    obtain ⟨shorter, passed⟩ := readString_passed read
    exact ⟨by simp only [passScalar, mark, passed], shorter.le⟩
  · split at h
    · next digit =>
      have passed := Number.read_passed h
      exact ⟨by rw [passScalar_number digit, passed],
        Nat.le_of_lt_succ (Number.length_pass passed)⟩
    · cases h

theorem passValues_scalar {b : UInt8} {bs more rest : Bytes} (next : skipBlanks bs = b :: more)
    (notList : asChar b ≠ '[') (notObject : asChar b ≠ '\x7b')
    (passed : passScalar b more = .ok rest) (fuel : Nat) (opened : List Bool) :
    passValues (fuel + 1) .value opened bs = passValues fuel .afterValue opened rest := by
  unfold passScalar at passed
  simp only [passValues, next]
  split at passed
  · next mark => simp only [mark, passed]
  · next mark => simp only [mark, passed]
  · next mark => simp only [mark, passed]
  · next mark => simp only [mark, passed]
  · next mark => simp only [mark, passed]
  · next null true false minus quote =>
    split at passed
    · next digit => simp only [digit, if_true, passed]
    · cases passed

/-! ## Values and containers -/

/-- How the passing reader stands in a container: at its first place, or behind one. -/
def within (first : Bool) : Passing := if first then .afterOpening else .afterValue

/-- What stands up to `rest` is passed over from a place, in containers that are open, whatever is
open around them. Fuel is used up for it, but less than two for each octet. -/
def PassedOver (place : Passing) (inside : List Bool) (bs rest : Bytes) : Prop :=
  ∃ n, n + 2 * rest.length + 2 ≤ 2 * bs.length ∧ ∀ fuel opened,
    passValues (fuel + n + 1) place (inside ++ opened) bs = passValues fuel .afterValue opened rest

theorem passValues_blanks (fuel : Nat) (opened : List Bool) (bs : Bytes) :
    passValues (fuel + 1) .value opened (skipBlanks bs) = passValues (fuel + 1) .value opened bs := by
  simp only [passValues, skipBlanks_skipBlanks]

theorem passValues_opening {b : UInt8} {bs more : Bytes} (next : skipBlanks bs = b :: more)
    (fuel : Nat) (opened : List Bool) :
    (asChar b = '[' → passValues (fuel + 1) .value opened bs =
      passValues fuel .afterOpening (true :: opened) more) ∧
    (asChar b = '\x7b' → passValues (fuel + 1) .value opened bs =
      passValues fuel .afterOpening (false :: opened) more) :=
  ⟨fun mark => by simp only [passValues, next, mark],
    fun mark => by simp only [passValues, next, mark]⟩

/-- A container is closed at any place. -/
theorem passValues_closing (isList : Bool) {b : UInt8} {bs rest : Bytes}
    (next : skipBlanks bs = b :: rest) (mark : asChar b = if isList then ']' else '\x7d')
    (first : Bool) (fuel : Nat) (opened : List Bool) :
    passValues (fuel + 1) (within first) (isList :: opened) bs =
      passValues fuel .afterValue opened rest := by
  have other : ¬ (if isList then ']' else '\x7d') = ',' := by cases isList <;> decide
  cases first <;>
    simp only [within, Bool.false_eq_true, if_false, if_true, passValues, next, mark, other,
      and_false]

/-- At the first place of a container there is no comma, and behind one there must be. -/
theorem passValues_going {b : UInt8} {bs rest : Bytes} (next : skipBlanks bs = b :: rest)
    (fuel : Nat) (opened : List Bool) :
    (asChar b ≠ ']' → passValues (fuel + 1) .afterOpening (true :: opened) bs =
      passValues fuel .value (true :: opened) (b :: rest)) ∧
    (asChar b = ',' → passValues (fuel + 1) .afterValue (true :: opened) bs =
      passValues fuel .value (true :: opened) rest) := by
  refine ⟨fun notEnd => ?_, fun comma => ?_⟩
  · simp only [passValues, next, Bool.false_eq_true, false_and, if_false, if_true, if_neg notEnd]
  · simp only [passValues, next, comma, and_self, if_true]

/-- An item is gone on to, at the first place or behind a comma. -/
theorem nextItem_passed {first : Bool} {bs : Bytes} {next : Next}
    (h : nextItem first bs = .ok next) :
    match next with
    | .done rest => PassedOver (within first) [true] bs rest
    | .more rest => rest.length ≤ bs.length ∧ ∀ fuel opened,
        passValues (fuel + 2) (within first) (true :: opened) bs =
          passValues (fuel + 1) .value (true :: opened) rest := by
  unfold nextItem at h
  split at h
  · cases h
  next b rest visible =>
  have taken := length_skipBlanks visible
  split at h
  · next mark =>
    cases h
    exact ⟨0, by omega, fun fuel opened =>
      passValues_closing true visible mark first fuel opened⟩
  next notEnd =>
  split at h
  · next opening =>
    cases h
    subst opening
    exact ⟨taken, fun fuel opened => (passValues_going visible (fuel + 1) opened).1 notEnd⟩
  next behind =>
  split at h
  · next comma =>
    split at h
    · cases h
    next c more visible' =>
    split at h
    · cases h
    · cases h
      have taken' := length_skipBlanks visible'
      refine ⟨by rw [List.length_cons]; omega, fun fuel opened => ?_⟩
      rw [← visible', passValues_blanks, Bool.eq_false_iff.2 behind]
      exact (passValues_going visible (fuel + 1) opened).2 comma
  · cases h

/-- A key is gone past, at the first place or behind a comma. -/
theorem passValues_key {b : UInt8} {bs rest : Bytes} (next : skipBlanks bs = b :: rest)
    {more left after : Bytes} (key : passString more = .ok left) (value : colon left = .ok after)
    (fuel : Nat) (opened : List Bool) :
    (asChar b = '"' → more = rest → passValues (fuel + 1) .afterOpening (false :: opened) bs =
      passValues fuel .value (false :: opened) after) ∧
    (∀ c, asChar b = ',' → skipBlanks rest = c :: more → asChar c = '"' →
      passValues (fuel + 1) .afterValue (false :: opened) bs =
        passValues fuel .value (false :: opened) after) := by
  refine ⟨fun quote same => ?_, fun c comma next' quote => ?_⟩
  · have again : skipBlanks (b :: rest) = b :: rest := by rw [← next, skipBlanks_skipBlanks]
    have notEnd : ¬ '"' = '\x7d' := by decide
    subst same
    simp only [passValues, next, again, quote, Bool.false_eq_true, false_and, if_false,
      if_neg notEnd, ne_eq, not_true_eq_false, key, value]
  · simp only [passValues, next, next', comma, quote, and_self, Bool.false_eq_true, if_true,
      if_false, ne_eq, not_true_eq_false, key, value]

theorem length_colon {bs rest : Bytes} (h : colon bs = .ok rest) : rest.length < bs.length := by
  unfold colon at h
  split at h
  · cases h
  next b more visible =>
  split at h
  · cases h
    exact length_skipBlanks visible
  · cases h

theorem nextKey_passed {first : Bool} {bs : Bytes} {next : Next}
    (h : nextKey first bs = .ok next) :
    match next with
    | .done rest => PassedOver (within first) [false] bs rest
    | .more rest => rest.length < bs.length ∧ ∀ left after, passString rest = .ok left →
        colon left = .ok after → ∀ fuel opened,
          passValues (fuel + 1) (within first) (false :: opened) bs =
            passValues fuel .value (false :: opened) after := by
  unfold nextKey at h
  split at h
  · cases h
  next b rest visible =>
  have taken := length_skipBlanks visible
  split at h
  · next mark =>
    cases h
    exact ⟨0, by omega, fun fuel opened =>
      passValues_closing false visible mark first fuel opened⟩
  split at h
  · next opening =>
    split at h
    · next quote =>
      cases h
      subst opening
      exact ⟨taken, fun left after key value fuel opened =>
        (passValues_key visible key value fuel opened).1 quote rfl⟩
    · cases h
  next behind =>
  split at h
  · next comma =>
    split at h
    · cases h
    next c more visible' =>
    split at h
    · next quote =>
      cases h
      have taken' := length_skipBlanks visible'
      refine ⟨by omega, fun left after key value fuel opened => ?_⟩
      rw [Bool.eq_false_iff.2 behind]
      exact (passValues_key visible key value fuel opened).2 c comma visible' quote
    · split at h <;> cases h
  · cases h

/-! ### Values, items and entries -/

/-- A container is passed over with what stands in it, from behind its opening bracket. -/
theorem PassedOver.container {isList : Bool} {bs more rest : Bytes}
    (taken : more.length + 1 ≤ bs.length) (opening : ∀ fuel opened,
      passValues (fuel + 1) .value opened bs =
        passValues fuel .afterOpening (isList :: opened) more)
    (inner : PassedOver .afterOpening [isList] more rest) : PassedOver .value [] bs rest := by
  obtain ⟨n, used, passed⟩ := inner
  refine ⟨n + 1, by omega, fun fuel opened => ?_⟩
  calc passValues (fuel + (n + 1) + 1) .value ([] ++ opened) bs
      = passValues (fuel + n + 1) .afterOpening (isList :: opened) more := opening _ opened
    _ = passValues fuel .afterValue opened rest := passed fuel opened

/-- In a container, a value is passed over and then what stands behind it. -/
theorem PassedOver.behind {place : Passing} {isList : Bool} {bs more middle rest : Bytes}
    (taken : more.length ≤ bs.length) (going : ∀ fuel opened,
      passValues (fuel + 2) place (isList :: opened) bs =
        passValues (fuel + 1) .value (isList :: opened) more)
    (value : PassedOver .value [] more middle)
    (later : PassedOver .afterValue [isList] middle rest) : PassedOver place [isList] bs rest := by
  obtain ⟨n, used, passed⟩ := value
  obtain ⟨n', used', passed'⟩ := later
  refine ⟨n + n' + 2, by omega, fun fuel opened => ?_⟩
  have regroup : fuel + (n + n' + 2) = fuel + n' + 1 + n + 1 := by omega
  calc passValues (fuel + (n + n' + 2) + 1) place ([isList] ++ opened) bs
      = passValues (fuel + n' + 1 + n + 1) .value (isList :: opened) more := by
        rw [regroup]
        exact going _ opened
    _ = passValues (fuel + n' + 1) .afterValue (isList :: opened) middle := passed _ _
    _ = passValues fuel .afterValue opened rest := passed' fuel opened

section Steps

variable {fuel : Nat}
  (ihValue : ∀ {depth bs v rest}, value fuel depth bs = .ok (v, rest) →
    PassedOver .value [] bs rest)
  (ihItems : ∀ {depth first bs vs rest}, items fuel depth first bs = .ok (vs, rest) →
    PassedOver (within first) [true] bs rest)
  (ihEntries : ∀ {depth first bs es rest}, entries fuel depth first bs = .ok (es, rest) →
    PassedOver (within first) [false] bs rest)

include ihItems ihEntries in
theorem value_passed_succ {depth : Nat} {bs rest : Bytes} {v : Json}
    (h : value (fuel + 1) depth bs = .ok (v, rest)) : PassedOver .value [] bs rest := by
  rw [value] at h
  split at h
  · cases h
  next b more visible =>
  have taken := length_skipBlanks visible
  split at h
  · next list =>
    split at h
    · cases h
    split at h
    · cases h
    next vs left read =>
    cases h
    exact .container taken (fun fuel opened => (passValues_opening visible fuel opened).1 list)
      (ihItems read)
  next notList =>
  split at h
  · next object =>
    split at h
    · cases h
    split at h
    · cases h
    next es left read =>
    cases h
    exact .container taken (fun fuel opened => (passValues_opening visible fuel opened).2 object)
      (ihEntries read)
  next notObject =>
  obtain ⟨passed, shorter⟩ := scalar_passed h
  exact ⟨0, by omega, passValues_scalar visible notList notObject passed⟩

include ihValue ihItems in
theorem items_passed_succ {depth : Nat} {first : Bool} {bs rest : Bytes} {vs : List Json}
    (h : items (fuel + 1) depth first bs = .ok (vs, rest)) :
    PassedOver (within first) [true] bs rest := by
  rw [items] at h
  split at h
  · cases h
  · next left gone =>
    cases h
    exact nextItem_passed gone
  next more gone =>
  obtain ⟨taken, going⟩ := nextItem_passed gone
  split at h
  · cases h
  next v middle read =>
  split at h
  · cases h
  next vs left later =>
  cases h
  exact .behind taken going (ihValue read) (ihItems later)

include ihValue ihEntries in
theorem entries_passed_succ {depth : Nat} {first : Bool} {bs rest : Bytes}
    {es : List (String × Json)} (h : entries (fuel + 1) depth first bs = .ok (es, rest)) :
    PassedOver (within first) [false] bs rest := by
  rw [entries] at h
  split at h
  · cases h
  · next left gone =>
    cases h
    exact nextKey_passed gone
  next more gone =>
  obtain ⟨taken, going⟩ := nextKey_passed gone
  split at h
  · cases h
  next k behindKey key =>
  obtain ⟨shorter, key⟩ := readString_passed key
  split at h
  · cases h
  next behindColon colon =>
  have shorter' := length_colon colon
  split at h
  · cases h
  next v middle read =>
  split at h
  · cases h
  next es left later =>
  cases h
  exact .behind (by omega) (fun fuel opened => going _ _ key colon (fuel + 1) opened)
    (ihValue read) (ihEntries later)

end Steps

/-- By induction on the fuel, for values, items and entries together. -/
theorem value_passed_all (fuel : Nat) :
    (∀ {depth bs v rest}, value fuel depth bs = .ok (v, rest) → PassedOver .value [] bs rest) ∧
      (∀ {depth first bs vs rest}, items fuel depth first bs = .ok (vs, rest) →
        PassedOver (within first) [true] bs rest) ∧
      (∀ {depth first bs es rest}, entries fuel depth first bs = .ok (es, rest) →
        PassedOver (within first) [false] bs rest) := by
  induction fuel with
  | zero => refine ⟨?_, ?_, ?_⟩ <;> intros <;> rename_i h <;> cases h
  | succ fuel ih =>
    obtain ⟨ihValue, ihItems, ihEntries⟩ := ih
    exact ⟨value_passed_succ ihItems ihEntries, items_passed_succ ihValue ihItems,
      entries_passed_succ ihValue ihEntries⟩

/-- **What is read is passed over**, and takes up some octets. -/
theorem value_passed {fuel depth : Nat} {bs rest : Bytes} {v : Json}
    (h : value fuel depth bs = .ok (v, rest)) :
    passValue bs = .ok rest ∧ rest.length < bs.length := by
  obtain ⟨n, used, passed⟩ := (value_passed_all fuel).1 h
  obtain ⟨spare, enough⟩ : ∃ k, fuelFor bs = k + 1 + n + 1 :=
    ⟨fuelFor bs - n - 2, by rw [fuelFor]; omega⟩
  refine ⟨?_, by omega⟩
  rw [passValue, enough]
  exact (passed (spare + 1) []).trans (passValues_done spare rest)

end NamedStores.Json
