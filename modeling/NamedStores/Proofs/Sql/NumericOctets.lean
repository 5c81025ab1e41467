/-
Octets that are to be a decimal number, whatever they are. Run on machine words, reading them
comes to an end and no step of it leaves its bounds: places and sizes stay within 64 bits, the
positions of digits within 32, and the text is cut where a character begins. It fails only where
the header or a digit it announces is missing; else the text has as many places as the scale
says, and octets behind the last digit count for nothing.
-/
import NamedStores.Proofs.Text.Integer
import NamedStores.Proofs.Text.Utf8
import NamedStores.Sql.Postgres

namespace NamedStores.Sql.Numeric

/-! ## Words and octets -/

/-- A word is there if both its octets are. -/
theorem getElem?_words (bs : Bytes) (i : Nat) : (words bs)[i]? =
    (bs[i * 2]?).bind fun a => (bs[i * 2 + 1]?).map fun b => a.toNat * 256 + b.toNat := by
  induction i generalizing bs with
  | zero =>
    match bs with
    | [] => rfl
    | [_] => rfl
    | a :: b :: bs => rfl
  | succ i ih =>
    match bs with
    | [] => rfl
    | [_] => rfl
    | a :: b :: bs =>
      rw [words, List.getElem?_cons_succ, ih, Nat.succ_mul, List.getElem?_cons_succ,
        List.getElem?_cons_succ, Nat.add_right_comm, List.getElem?_cons_succ,
        List.getElem?_cons_succ]

theorem length_words (bs : Bytes) : (words bs).length = bs.length / 2 := by
  fun_induction words bs with
  | case1 a b rest ih => rw [List.length_cons, ih, List.length_cons, List.length_cons]; omega
  | case2 bs short =>
    match bs with
    | [] => rfl
    | [_] => rw [List.length_nil, List.length_singleton]
    | a :: b :: rest => exact absurd rfl (short a b rest)

theorem lt_of_mem_words {bs : Bytes} {n : Nat} (h : n ∈ words bs) : n < 0x10000 := by
  fun_induction words bs with
  | case1 a b rest ih =>
    rcases List.mem_cons.1 h with rfl | later
    · have ha := a.toNat_lt
      have hb := b.toNat_lt
      omega
    · exact ih later
  | case2 bs _ => cases h

/-- Words behind whole words are read as if nothing stood before them. -/
theorem words_append {front : Bytes} {n : Nat} (even : front.length = 2 * n) (more : Bytes) :
    words (front ++ more) = words front ++ words more := by
  induction n generalizing front with
  | zero => rw [List.length_eq_zero_iff.1 even]; rfl
  | succ n ih =>
    match front with
    | [] => cases even
    | [_] => simp only [List.length_singleton] at even; omega
    | a :: b :: front =>
      simp only [List.length_cons] at even
      rw [List.cons_append, List.cons_append, words, words, ih (by omega), List.cons_append]

theorem words_take (bs : Bytes) (n : Nat) : words (bs.take (2 * n)) = (words bs).take n := by
  induction n generalizing bs with
  | zero => rfl
  | succ n ih =>
    match bs with
    | [] => rfl
    | [_] => rfl
    | a :: b :: bs =>
      rw [Nat.mul_succ, List.take_succ_cons, List.take_succ_cons, words, ih, words,
        List.take_succ_cons]

/-! ## On machine words -/

/-- What would end a run early: a number that leaves its type, or a place that is not there. -/
inductive Trap where
  | overflow
  | outOfRange

/-- A size or a place, of 64 bits. -/
def size (n : Nat) : Except Trap Nat :=
  if n < 0x10000000000000000 then .ok n else .error .overflow

/-- The position of a digit, of 32 bits with a sign. -/
def position32 (n : Int) : Except Trap Int :=
  if -0x80000000 ≤ n ∧ n < 0x80000000 then .ok n else .error .overflow

/-- An octet that must be there. -/
def octetAt (bs : Bytes) (i : Nat) : Except Trap Nat :=
  match bs[i]? with
  | some b => .ok b.toNat
  | none => .error .outOfRange

/-- The octets from one place up to another, if all of them are there. -/
def slice? (bs : Bytes) (start stop : Nat) : Option Bytes :=
  if start ≤ stop ∧ stop ≤ bs.length then some ((bs.drop start).take (stop - start)) else none

/-- A word, if it is there. -/
def wordRun (bs : Bytes) (i : Nat) : Except Trap (Option Nat) := do
  let start ← size (i * 2)
  let stop ← size (start + 2)
  match slice? bs start stop with
  | none => return none
  | some pair =>
    let high ← octetAt pair 0
    let low ← octetAt pair 1
    return some (high * 256 + low)

/-- So many words from one on, if all of them are there. -/
def wordsRun (bs : Bytes) : Nat → Nat → Except Trap (Option (List Nat))
  | 0, _ => return some []
  | n + 1, i => do
    match ← wordRun bs i with
    | none => return none
    | some word =>
      let next ← size (i + 1)
      let later ← wordsRun bs n next
      return later.map (word :: ·)

/-- How many octets a text takes. -/
def octetCount (cs : List Char) : Nat := (Utf8.encode cs).length

/-- The first octets of a text, where a character must end. -/
def cutRun : List Char → Nat → Except Trap (List Char)
  | _, 0 => return []
  | [], _ + 1 => return []
  | c :: cs, n + 1 =>
    if octetCount [c] ≤ n + 1 then do
      let later ← cutRun cs (n + 1 - octetCount [c])
      return c :: later
    else .error .outOfRange

theorem octetCount_append (cs ds : List Char) :
    octetCount (cs ++ ds) = octetCount cs + octetCount ds := by
  rw [octetCount, Utf8.encode_append, List.length_append, octetCount, octetCount]

theorem length_le_octetCount (cs : List Char) : cs.length ≤ octetCount cs := by
  induction cs with
  | nil => exact Nat.zero_le _
  | cons c cs ih =>
    have some := List.length_pos_iff.2 (Utf8.octets_ne_nil c)
    rw [octetCount] at ih ⊢
    rw [Utf8.encode_cons, List.length_append, List.length_cons]
    omega

theorem four_le_length_group (n : Nat) : 4 ≤ (group n).length := by
  rw [group, List.length_append, List.length_replicate]
  omega

/-- The places behind the point: groups are put behind each other until there are enough
octets, which each group adds to. -/
def placesRun (digits : List Nat) (scale : Nat) (position : Int) (text : List Char) :
    Except Trap (List Char) :=
  if octetCount text < scale then
    match position32 (position + 1) with
    | .error trap => .error trap
    | .ok next => placesRun digits scale next (text ++ group (digitAt digits position))
  else .ok text
termination_by scale - octetCount text
decreasing_by
  have added := Nat.le_trans (four_le_length_group (digitAt digits position))
    (length_le_octetCount _)
  rw [octetCount_append]
  omega

/-- The text of a finite number. The positions before the point need no sum: they are those up
to the weight. -/
def finiteRun (negative : Bool) (digits : List Nat) (weight : Int) (scale : Nat) :
    Except Trap (List Char) := do
  let front := (if negative then ['-'] else []) ++ integerPart digits weight
  if scale = 0 then return front
  else
    let _ ← size (scale + 4)
    let first ← position32 (weight + 1)
    let places ← placesRun digits scale first []
    let places ← cutRun places scale
    return front ++ '.' :: places

/-- The text of octets, as it is got on machine words. -/
def run (bs : Bytes) : Except Trap (Option String) := do
  match ← wordsRun bs 4 0 with
  | some [count, weight, sign, scale] =>
    if sign = 0xC000 then return some "NaN"
    else if sign = 0xD000 then return some "Infinity"
    else if sign = 0xF000 then return some "-Infinity"
    else
      match ← wordsRun bs count 4 with
      | none => return none
      | some digits =>
        let text ← finiteRun (sign = 0x4000) digits (signed weight) scale
        return some (String.ofList text)
  | _ => return none

/-! ## No run ends early -/

theorem size_ok {n : Nat} (h : n < 0x10000000000000000) : size n = .ok n := if_pos h

theorem position32_ok {n : Int} (low : -0x80000000 ≤ n) (high : n < 0x80000000) :
    position32 n = .ok n := if_pos ⟨low, high⟩

theorem wordRun_eq (bs : Bytes) {i : Nat} (small : i < 0x100000) :
    wordRun bs i = .ok (words bs)[i]? := by
  simp only [wordRun, size_ok (show i * 2 < 0x10000000000000000 by omega),
    size_ok (show i * 2 + 2 < 0x10000000000000000 by omega), bind, Except.bind, getElem?_words]
  by_cases there : i * 2 + 2 ≤ bs.length
  · have first : i * 2 < bs.length := by omega
    have second : i * 2 + 1 < bs.length := by omega
    have pair : slice? bs (i * 2) (i * 2 + 2) = some [bs[i * 2], bs[i * 2 + 1]] := by
      rw [slice?, if_pos ⟨by omega, there⟩, Nat.add_sub_cancel_left,
        List.drop_eq_getElem_cons first, List.drop_eq_getElem_cons second]
      rfl
    rw [pair, List.getElem?_eq_getElem first, List.getElem?_eq_getElem second]
    rfl
  · have missing : slice? bs (i * 2) (i * 2 + 2) = none := if_neg fun h => there h.2
    have second : bs[i * 2 + 1]? = none := List.getElem?_eq_none (by omega)
    rw [missing, second]
    cases bs[i * 2]? <;> rfl

theorem wordsRun_eq (bs : Bytes) (n : Nat) : ∀ {i : Nat}, i + n < 0x100000 →
    wordsRun bs n i = .ok (if n ≤ ((words bs).drop i).length then some (((words bs).drop i).take n)
      else none) := by
  induction n with
  | zero => exact fun _ => rfl
  | succ n ih =>
    intro i small
    simp only [wordsRun, wordRun_eq bs (show i < 0x100000 by omega),
      size_ok (show i + 1 < 0x10000000000000000 by omega),
      ih (show i + 1 + n < 0x100000 by omega), bind, Except.bind]
    rcases Nat.lt_or_ge i (words bs).length with inside | outside
    · rw [List.getElem?_eq_getElem inside, List.drop_eq_getElem_cons inside, List.take_succ_cons,
        List.length_cons]
      by_cases all : n ≤ ((words bs).drop (i + 1)).length
      · rw [if_pos all, if_pos (Nat.succ_le_succ all)]
        rfl
      · rw [if_neg all, if_neg fun h => all (Nat.le_of_succ_le_succ h)]
        rfl
    · rw [List.getElem?_eq_none outside, List.drop_eq_nil_of_le outside, List.length_nil,
        if_neg (Nat.not_succ_le_zero n)]
      rfl

/-! ### Groups of places -/

theorem isDigit_bounds {c : Char} (hc : Integer.isDigit c = true) : c.toNat < 0x80 ∧ c ≠ '.' := by
  simp only [Integer.isDigit, Bool.and_eq_true, decide_eq_true_eq, Char.le_def,
    UInt32.le_iff_toNat_le] at hc
  change 0x30 ≤ c.toNat ∧ c.toNat ≤ 0x39 at hc
  refine ⟨by omega, ?_⟩
  rintro rfl
  exact absurd hc.1 (by decide)

theorem toDigits_digits (n : Nat) : ∀ c ∈ Nat.toDigits 10 n, Integer.isDigit c = true :=
  Integer.forall_mem_toDigits (p := fun c => Integer.isDigit c = true) (by decide) n

theorem group_digits (n : Nat) : ∀ c ∈ group n, Integer.isDigit c = true := by
  intro c hc
  rcases List.mem_append.1 hc with zero | digit
  · rw [List.eq_of_mem_replicate zero]
    rfl
  · exact toDigits_digits n c digit

theorem octetCount_digits {cs : List Char} (digits : ∀ c ∈ cs, Integer.isDigit c = true) :
    octetCount cs = cs.length := by
  induction cs with
  | nil => rfl
  | cons c cs ih =>
    have one := Utf8.octets_ascii (isDigit_bounds (digits c List.mem_cons_self)).1
    have later := ih fun d hd => digits d (List.mem_cons_of_mem c hd)
    rw [octetCount] at later ⊢
    rw [Utf8.encode_cons, one, List.length_append, later, List.length_singleton, List.length_cons,
      Nat.add_comm]

/-- Between digits a text can be cut anywhere. -/
theorem cutRun_digits {cs : List Char} (digits : ∀ c ∈ cs, Integer.isDigit c = true) (n : Nat) :
    cutRun cs n = .ok (cs.take n) := by
  induction cs generalizing n with
  | nil => cases n <;> rfl
  | cons c cs ih =>
    cases n with
    | zero => rfl
    | succ n =>
      have one : octetCount [c] = 1 := octetCount_digits fun d hd => by
        rw [List.mem_singleton.1 hd]
        exact digits c List.mem_cons_self
      rw [cutRun, one, if_pos (Nat.succ_le_succ (Nat.zero_le n)), Nat.add_sub_cancel,
        ih (fun d hd => digits d (List.mem_cons_of_mem c hd)) n]
      rfl

/-- So many groups behind each other, from a position on. -/
def groups (digits : List Nat) (position : Int) (k : Nat) : List Char :=
  (List.range k).flatMap fun (i : Nat) => group (digitAt digits (position + i))

theorem groups_succ (digits : List Nat) (position : Int) (k : Nat) :
    groups digits position (k + 1) =
      group (digitAt digits position) ++ groups digits (position + 1) k := by
  have here : position + ((0 : Nat) : Int) = position := by omega
  have shift (i : Nat) : position + ((i + 1 : Nat) : Int) = position + 1 + i := by omega
  rw [groups, List.range_succ_eq_map, List.flatMap_cons, List.flatMap_map, here]
  simp only [Nat.succ_eq_add_one, shift]
  rfl

theorem groups_add (digits : List Nat) (position : Int) (k m : Nat) :
    groups digits position (k + m) =
      groups digits position k ++ groups digits (position + k) m := by
  have shift (i : Nat) : position + ((k + i : Nat) : Int) = position + k + i := by omega
  rw [groups, List.range_add, List.flatMap_append, List.flatMap_map]
  simp only [shift]
  rfl

theorem groups_digits (digits : List Nat) (position : Int) (k : Nat) :
    ∀ c ∈ groups digits position k, Integer.isDigit c = true := by
  intro c hc
  obtain ⟨i, -, member⟩ := List.mem_flatMap.1 hc
  exact group_digits _ c member

theorem length_groups (digits : List Nat) (position : Int) (k : Nat) :
    4 * k ≤ (groups digits position k).length := by
  induction k generalizing position with
  | zero => exact Nat.zero_le _
  | succ k ih =>
    have first := four_le_length_group (digitAt digits position)
    have later := ih (position + 1)
    rw [groups_succ, List.length_append]
    omega

/-- Once there are enough places, more groups do not change them. -/
theorem take_groups {digits : List Nat} {position : Int} {scale k m : Nat}
    (hk : scale ≤ (groups digits position k).length)
    (hm : scale ≤ (groups digits position m).length) :
    (groups digits position k).take scale = (groups digits position m).take scale := by
  rcases Nat.le_total k m with less | more
  · obtain ⟨d, rfl⟩ := Nat.exists_eq_add_of_le less
    rw [groups_add, List.take_append_of_le_length hk]
  · obtain ⟨d, rfl⟩ := Nat.exists_eq_add_of_le more
    rw [groups_add, List.take_append_of_le_length hm]

theorem fractionPart_groups (digits : List Nat) (weight : Int) (scale : Nat) :
    fractionPart digits weight scale =
      (groups digits (weight + 1) ((scale + 3) / 4)).take scale := rfl

theorem length_fractionPart (digits : List Nat) (weight : Int) (scale : Nat) :
    (fractionPart digits weight scale).length = scale := by
  have enough := length_groups digits (weight + 1) ((scale + 3) / 4)
  rw [fractionPart_groups, List.length_take]
  omega

/-- The loop ends with some number of groups, which are enough. -/
theorem placesRun_eq (digits : List Nat) (scale : Nat) (position : Int) (text : List Char)
    (places : ∀ c ∈ text, Integer.isDigit c = true) (low : -0x80000000 ≤ position)
    (high : position + (scale - text.length : Nat) < 0x7FFFFFFF) :
    ∃ k, placesRun digits scale position text = .ok (text ++ groups digits position k) ∧
      scale ≤ (text ++ groups digits position k).length := by
  fun_induction placesRun digits scale position text with
  | case1 position text short trap overflow =>
    rw [octetCount_digits places] at short
    rw [position32_ok (by omega) (by omega)] at overflow
    cases overflow
  | case2 position text short next moved ih =>
    rw [octetCount_digits places] at short
    rw [position32_ok (by omega) (by omega)] at moved
    cases moved
    have longer := four_le_length_group (digitAt digits position)
    obtain ⟨k, filled, enough⟩ := ih
      (fun c hc => (List.mem_append.1 hc).elim (places c) (group_digits _ c)) (by omega)
      (by rw [List.length_append]; omega)
    refine ⟨k + 1, ?_, ?_⟩
    · rw [filled, groups_succ, List.append_assoc]
    · rwa [groups_succ, ← List.append_assoc]
  | case3 position text long =>
    rw [octetCount_digits places] at long
    have none : groups digits position 0 = [] := rfl
    exact ⟨0, by rw [none, List.append_nil], by rw [none, List.append_nil]; omega⟩

/-! ### The whole run -/

theorem signed_bounds {n : Nat} (h : n < 0x10000) : -0x8000 ≤ signed n ∧ signed n < 0x8000 := by
  rw [signed]
  have value : Int.ofNat n = n := rfl
  split <;> omega

theorem finiteRun_eq (negative : Bool) (digits : List Nat) {weight : Int}
    (bounds : -0x8000 ≤ weight ∧ weight < 0x8000) {scale : Nat} (small : scale < 0x10000) :
    finiteRun negative digits weight scale = .ok (finiteChars negative digits weight scale) := by
  rw [finiteRun, finiteChars]
  split
  · rw [List.append_nil]
    rfl
  · obtain ⟨k, filled, enough⟩ := placesRun_eq digits scale (weight + 1) []
      (fun _ none => absurd none List.not_mem_nil) (by omega) (by simp only [List.length_nil]; omega)
    rw [List.nil_append] at filled enough
    have places : (groups digits (weight + 1) k).take scale = fractionPart digits weight scale := by
      have planned := length_groups digits (weight + 1) ((scale + 3) / 4)
      exact take_groups enough (by omega)
    have room : scale + 4 < 0x10000000000000000 := by omega
    simp only [size_ok room, position32_ok (show -0x80000000 ≤ weight + 1 by omega)
      (show weight + 1 < 0x80000000 by omega), filled, cutRun_digits (groups_digits _ _ _), places,
      bind, Except.bind]
    rfl

/-- Every run comes to its end, with the text that is said. -/
theorem run_eq (bs : Bytes) : run bs = .ok (text? bs) := by
  have header := wordsRun_eq bs 4 (i := 0) (by decide)
  rw [List.drop_zero] at header
  simp only [run, header, bind, Except.bind]
  match split : words bs with
  | [] => simp only [text?, split]; rfl
  | [_] => simp only [text?, split]; rfl
  | [_, _] => simp only [text?, split]; rfl
  | [_, _, _] => simp only [text?, split]; rfl
  | count :: weight :: sign :: scale :: rest =>
    have word {n : Nat} (h : n ∈ words bs) : n < 0x10000 := lt_of_mem_words h
    rw [split] at word
    have count_small : count < 0x10000 := word (by simp)
    have scale_small : scale < 0x10000 := word (by simp)
    have weight_small := signed_bounds (n := weight) (word (by simp))
    have digits := wordsRun_eq bs count (i := 4) (by omega)
    rw [split] at digits
    simp only [List.drop_succ_cons, List.drop_zero] at digits
    have enough : 4 ≤ (count :: weight :: sign :: scale :: rest).length := by
      simp only [List.length_cons]
      omega
    simp only [if_pos enough, List.take_succ_cons, List.take_zero, digits, text?, split]
    -- The three sign words that stand for no number come first.
    split
    · rfl
    split
    · rfl
    split
    · rfl
    by_cases all : count ≤ rest.length
    · rw [if_pos all, if_neg (Nat.not_lt.2 all)]
      simp only [finiteRun_eq _ _ weight_small scale_small]
      rfl
    · rw [if_neg all, if_pos (Nat.not_le.1 all)]
      rfl

/-! ## What comes of octets -/

/-- The sign words that stand for no number. -/
def notNumbers : List Nat := [0xC000, 0xD000, 0xF000]

/-- Octets are too few for a header, or they begin with one. -/
theorem header_cases (bs : Bytes) : (bs.length < 8 ∧ text? bs = none) ∨
    ∃ count weight sign scale rest, words bs = count :: weight :: sign :: scale :: rest := by
  have length := length_words bs
  match split : words bs with
  | [] | [_] | [_, _] | [_, _, _] =>
    rw [split] at length
    simp only [List.length_cons, List.length_nil] at length
    exact .inl ⟨by omega, by simp only [text?, split]⟩
  | count :: weight :: sign :: scale :: rest => exact .inr ⟨count, weight, sign, scale, rest, rfl⟩

section Header

variable {bs : Bytes} {count weight sign scale : Nat} {rest : List Nat}
  (header : words bs = count :: weight :: sign :: scale :: rest)

include header

theorem header_length : 8 ≤ bs.length ∧ rest.length = (bs.length - 8) / 2 := by
  have length := length_words bs
  rw [header] at length
  simp only [List.length_cons] at length
  omega

theorem text?_of_notNumber (special : sign ∈ notNumbers) :
    ∃ name, ∀ {bs' : Bytes} {count' weight' scale' : Nat} {rest' : List Nat},
      words bs' = count' :: weight' :: sign :: scale' :: rest' → text? bs' = some name := by
  simp only [notNumbers, List.mem_cons, List.not_mem_nil, or_false] at special
  rcases special with rfl | rfl | rfl
  · exact ⟨"NaN", fun h => by simp only [text?, h]; rfl⟩
  · exact ⟨"Infinity", fun h => by simp only [text?, h]; rfl⟩
  · exact ⟨"-Infinity", fun h => by simp only [text?, h]; rfl⟩

theorem text?_of_number (finite : sign ∉ notNumbers) : text? bs =
    if rest.length < count then none
    else some (String.ofList
      (finiteChars (sign = 0x4000) (rest.take count) (signed weight) scale)) := by
  simp only [notNumbers, List.mem_cons, List.not_mem_nil, or_false, not_or] at finite
  simp only [text?, header]
  rw [if_neg finite.1, if_neg finite.2.1, if_neg finite.2.2]

/-- Other octets behind the last digit leave the header and the digits as they are. -/
theorem header_kept (more : Bytes) : ∃ rest',
    words (bs.take (8 + 2 * count) ++ more) = count :: weight :: sign :: scale :: rest' ∧
      (count ≤ rest.length → count ≤ rest'.length ∧ rest'.take count = rest.take count) := by
  have long := (header_length header).1
  have eight : (bs.take 8).length = 2 * 4 := by rw [List.length_take]; omega
  have front : words (bs.take 8) = [count, weight, sign, scale] := by
    rw [words_take bs 4, header]
    rfl
  have behind : rest = words (bs.drop 8) := by
    have whole := words_append eight (bs.drop 8)
    rw [List.take_append_drop, header, front] at whole
    simpa using whole
  have parts : bs.take (8 + 2 * count) ++ more =
      bs.take 8 ++ ((bs.drop 8).take (2 * count) ++ more) := by
    rw [List.take_add, List.append_assoc]
  refine ⟨words ((bs.drop 8).take (2 * count) ++ more), ?_, fun all => ?_⟩
  · rw [parts, words_append eight, front]
    rfl
  · have even : ((bs.drop 8).take (2 * count)).length = 2 * count := by
      have length := length_words (bs.drop 8)
      rw [← behind] at length
      rw [List.length_take]
      omega
    have digits : (rest.take count).length = count := by
      rw [List.length_take]
      omega
    rw [words_append even, words_take, ← behind]
    exact ⟨by rw [List.length_append]; omega, List.take_left' digits⟩

end Header

/-! ## What is said of the octets -/

/-- The octets begin with these header words. -/
def Announces (bs : Bytes) (count weight sign scale : Nat) : Prop :=
  ∃ rest, words bs = count :: weight :: sign :: scale :: rest

/-- So many characters stand behind the only point of a text; with none there is no point. -/
def HasPlaces (text : String) (scale : Nat) : Prop :=
  ∃ front places, text.toList = front ++ (if scale = 0 then [] else '.' :: places) ∧
    '.' ∉ front ∧ '.' ∉ places ∧ places.length = scale

theorem text?_eq_none_iff (bs : Bytes) : text? bs = none ↔ bs.length < 8 ∨
    ∃ count weight sign scale, Announces bs count weight sign scale ∧ sign ∉ notNumbers ∧
      bs.length < 8 + 2 * count := by
  rcases header_cases bs with ⟨short, none⟩ | ⟨count, weight, sign, scale, rest, header⟩
  · exact iff_of_true none (.inl short)
  obtain ⟨long, length⟩ := header_length header
  by_cases finite : sign ∉ notNumbers
  · rw [text?_of_number header finite]
    split
    · next short =>
      exact iff_of_true rfl (.inr ⟨count, weight, sign, scale, ⟨rest, header⟩, finite, by omega⟩)
    · next all =>
      refine iff_of_false (fun h => by cases h) ?_
      rintro (short | ⟨_, _, _, _, ⟨_, same⟩, -, short⟩)
      · omega
      · cases header.symm.trans same
        omega
  · obtain ⟨name, named⟩ := text?_of_notNumber header (Decidable.not_not.1 finite)
    rw [named header]
    refine iff_of_false (fun h => by cases h) ?_
    rintro (short | ⟨_, _, _, _, ⟨_, same⟩, finite', -⟩)
    · omega
    · cases header.symm.trans same
      exact finite finite'

theorem point_not_mem_integerPart (digits : List Nat) (weight : Int) :
    '.' ∉ integerPart digits weight := by
  have other {cs : List Char} (digits : ∀ c ∈ cs, Integer.isDigit c = true) : '.' ∉ cs :=
    fun h => (isDigit_bounds (digits '.' h)).2 rfl
  rw [integerPart]
  split
  · decide
  · rw [List.mem_append, not_or]
    refine ⟨other (toDigits_digits _), fun h => ?_⟩
    obtain ⟨i, -, member⟩ := List.mem_flatMap.1 h
    exact other (group_digits _) member

theorem finiteChars_places (negative : Bool) (digits : List Nat) (weight : Int) (scale : Nat) :
    HasPlaces (String.ofList (finiteChars negative digits weight scale)) scale := by
  refine ⟨(if negative then ['-'] else []) ++ integerPart digits weight,
    fractionPart digits weight scale, by rw [String.toList_ofList, finiteChars], ?_, fun h => ?_,
    length_fractionPart digits weight scale⟩
  · rw [List.mem_append, not_or]
    exact ⟨by cases negative <;> decide, point_not_mem_integerPart digits weight⟩
  · rw [fractionPart_groups] at h
    exact (isDigit_bounds (groups_digits _ _ _ '.' (List.mem_of_mem_take h))).2 rfl

theorem text?_kept {bs : Bytes} {count weight sign scale : Nat}
    (announced : Announces bs count weight sign scale) {text : String}
    (said : text? bs = some text) (more : Bytes) :
    text? (bs.take (8 + 2 * count) ++ more) = some text := by
  obtain ⟨rest, header⟩ := announced
  obtain ⟨rest', header', kept⟩ := header_kept header more
  by_cases finite : sign ∉ notNumbers
  · rw [text?_of_number header finite] at said
    split at said
    · cases said
    · next all =>
      obtain ⟨all', same⟩ := kept (Nat.not_lt.1 all)
      rw [text?_of_number header' finite, if_neg (Nat.not_lt.2 all'), same]
      exact said
  · obtain ⟨name, named⟩ := text?_of_notNumber header (Decidable.not_not.1 finite)
    rw [named header']
    exact (named header).symm.trans said

/-- **Any octets are read safely.** On machine words the run comes to its end without leaving any
bound; it gives no text exactly where the header is cut short, or a number's digits are; a number
has as many places as its scale says, and nothing behind its last digit counts. -/
theorem octets_read_safely (bs : Bytes) :
    run bs = .ok (text? bs) ∧
      (text? bs = none ↔ bs.length < 8 ∨
        ∃ count weight sign scale, Announces bs count weight sign scale ∧ sign ∉ notNumbers ∧
          bs.length < 8 + 2 * count) ∧
      ∀ count weight sign scale, Announces bs count weight sign scale →
        ∀ text, text? bs = some text → (sign ∉ notNumbers → HasPlaces text scale) ∧
          ∀ more, text? (bs.take (8 + 2 * count) ++ more) = some text := by
  refine ⟨run_eq bs, text?_eq_none_iff bs,
    fun count weight sign scale announced text said => ⟨fun finite => ?_, text?_kept announced said⟩⟩
  obtain ⟨rest, header⟩ := announced
  rw [text?_of_number header finite] at said
  split at said
  · cases said
  · cases said
    exact finiteChars_places _ _ _ _

/-- One digit far above 9999, a sign word of no meaning, and two octets too many: the group is
cut to the three places of the scale. -/
theorem crowded_digit_cut :
    let bs : Bytes := [0, 1, 0xFF, 0xFF, 0x12, 0x34, 0, 3, 0xFF, 0xFF, 7, 7]
    Announces bs 1 0xFFFF 0x1234 3 ∧ 0x1234 ∉ notNumbers ∧ text? bs = some "0.655" ∧
      run bs = .ok (some "0.655") ∧ HasPlaces "0.655" 3 ∧
      text? [0, 1, 0xFF, 0xFF, 0x12, 0x34, 0, 3, 0xFF, 0xFF] = some "0.655" := by
  intro bs
  have announced : Announces bs 1 0xFFFF 0x1234 3 := ⟨_, rfl⟩
  have finite : 0x1234 ∉ notNumbers := by decide
  have said : text? bs = some "0.655" := by decide +kernel
  obtain ⟨ran, -, read⟩ := octets_read_safely bs
  obtain ⟨places, kept⟩ := read 1 0xFFFF 0x1234 3 announced "0.655" said
  exact ⟨announced, finite, said, ran.trans (congrArg _ said), places finite, kept []⟩

end NamedStores.Sql.Numeric
