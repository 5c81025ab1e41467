/-
The text of a double read back. The reader gathers all digits into one significand, so it finds the
digits of the shortest decimal and its exponent again, wherever the text has its point; a whole
number is written with a zero behind the point and found with one digit more. What it makes of them
is the scaled significand.
-/
import NamedStores.Proofs.Double.Shortest
import NamedStores.Proofs.Json.Scalar
import NamedStores.Proofs.Json.Scaling

namespace NamedStores.Json

namespace Number

/-! ## Digits behind the point -/

theorem gatherPart_fits (ds : List Nat) : ∀ {sig n : Nat},
    ds.foldl (fun n d => n * 10 + d) sig = n → n < 0x10000000000000000 →
      gatherPart sig ds = (n, ds.length) := by
  induction ds with
  | nil =>
    rintro sig n rfl -
    rfl
  | cons d ds ih =>
    intro sig n total bound
    rw [List.foldl_cons] at total
    have fit : fits sig d = true := by
      have low := foldl_grows ds (sig * 10 + d)
      simp only [fits, decide_eq_true_eq]
      omega
    rw [gatherPart, if_pos fit, ih total bound, List.length_cons]

/-- Digits that a number may begin with: at least one, and no zero in front of others. -/
structure Whole (cs : List Char) : Prop where
  some : cs ≠ []
  digits : ∀ c ∈ cs, Integer.isDigit c = true
  front : ∀ ds, cs = '0' :: ds → ds = []

/-- Digits behind the point, of which there is at least one. -/
structure Part (cs : List Char) : Prop where
  some : cs ≠ []
  digits : ∀ c ∈ cs, Integer.isDigit c = true

/-- What is done after all digits of a significand: an exponent follows, or the number ends. -/
def scaled (negative : Bool) (sig : Nat) (e : Int) : Bytes → Step Json
  | b :: more => if isExponentMark b then exponent negative sig e more
    else float negative sig e (b :: more)
  | [] => float negative sig e []

theorem part_digits (negative : Bool) {ws cs : List Char} (behind : Part cs)
    (bound : Integer.digitsValue (ws ++ cs) < 0x10000000000000000) {rest : Bytes}
    (stop : ∀ b ∈ rest.head?, isDigit b = false) :
    part negative (Integer.digitsValue ws) 0 (Utf8.encode cs ++ rest) =
      scaled negative (Integer.digitsValue (ws ++ cs)) (-cs.length) rest := by
  have total := digitsValue_append ws cs
  have some : cs.map (fun c => c.toNat - 0x30) ≠ [] := by
    rw [ne_eq, List.map_eq_nil_iff]
    exact behind.some
  have length : (cs.map fun c => c.toNat - 0x30).length = cs.length := List.length_map _
  rw [part, spanDigits_digits behind.digits stop]
  generalize (cs.map fun c => c.toNat - 0x30) = ds at *
  generalize Integer.digitsValue (ws ++ cs) = n at *
  obtain ⟨d, ds, rfl⟩ := List.exists_cons_of_ne_nil some
  have gathered := gatherPart_fits (d :: ds) total.symm bound
  have exponent : Int.ofNat 0 - (cs.length : Int) = -cs.length := Int.zero_sub _
  dsimp only
  rw [gathered, length]
  dsimp only
  rw [exponent]
  cases rest <;> rfl

theorem read_point (negative : Bool) {ws cs : List Char} (before : Whole ws) (behind : Part cs)
    (bound : Integer.digitsValue (ws ++ cs) < 0x10000000000000000) {rest : Bytes}
    (stop : ∀ b ∈ rest.head?, isDigit b = false) :
    read negative (Utf8.encode (ws ++ '.' :: cs) ++ rest) =
      scaled negative (Integer.digitsValue (ws ++ cs)) (-cs.length) rest := by
  have less : Integer.digitsValue ws ≤ Integer.digitsValue (ws ++ cs) := by
    rw [digitsValue_append]
    exact foldl_grows _ _
  have point : ∀ b ∈ (Utf8.encode ('.' :: cs) ++ rest).head?, isDigit b = false := by
    rintro b ⟨⟩
    decide
  have dot : Utf8.encode ('.' :: cs) ++ rest = 0x2E :: (Utf8.encode cs ++ rest) := rfl
  have mark : asChar 0x2E = '.' := by decide
  rw [Utf8.encode_append, List.append_assoc,
    read_whole negative before.some before.digits before.front (by omega) point, dot, afterWhole]
  rw [if_pos mark, part_digits negative behind bound stop]

theorem read_mark (negative : Bool) {ws : List Char} (before : Whole ws)
    (bound : Integer.digitsValue ws < 0x10000000000000000) (rest : Bytes) :
    read negative (Utf8.encode ws ++ 0x65 :: rest) =
      scaled negative (Integer.digitsValue ws) 0 (0x65 :: rest) := by
  have stop : ∀ b ∈ ((0x65 : UInt8) :: rest).head?, isDigit b = false := by
    rintro b ⟨⟩
    decide
  have other : ¬ asChar 0x65 = '.' := by decide
  have mark : isExponentMark 0x65 = true := by decide
  rw [read_whole negative before.some before.digits before.front bound stop, afterWhole, scaled,
    if_neg other, if_pos mark, if_pos mark]
  rfl

theorem scaled_ends (negative : Bool) (sig : Nat) (e : Int) {rest : Bytes} (ends : EndsNumber rest) :
    scaled negative sig e rest = float negative sig e rest := by
  cases rest with
  | nil => rfl
  | cons b rest =>
    obtain ⟨-, -, mark⟩ := ends b rfl
    rw [scaled, mark, if_neg Bool.false_ne_true]

/-! ## Exponents -/

theorem exponentDigits_digits {cs : List Char} (digits : ∀ c ∈ cs, Integer.isDigit c = true)
    {rest : Bytes} (stop : ∀ b ∈ rest.head?, isDigit b = false) : ∀ {e n : Nat},
    (cs.map fun c => c.toNat - 0x30).foldl (fun n d => n * 10 + d) e = n → n < 0x80000000 →
      exponentDigits e (Utf8.encode cs ++ rest) = .ok (n, rest) := by
  induction cs with
  | nil =>
    rintro e n rfl -
    cases rest with
    | nil => rfl
    | cons b rest =>
      have other := stop b rfl
      simp [Utf8.encode, exponentDigits, other]
  | cons c cs ih =>
    intro e n total bound
    obtain ⟨octet, -, isdigit, value⟩ := octet_digit (digits c List.mem_cons_self)
    rw [List.map_cons, List.foldl_cons] at total
    have low := foldl_grows (cs.map fun c => c.toNat - 0x30) (e * 10 + (c.toNat - 0x30))
    rw [Utf8.encode_cons, octet, List.singleton_append, List.cons_append, exponentDigits, isdigit,
      if_pos rfl, value, if_neg (by omega),
      ih (fun d hd => digits d (List.mem_cons_of_mem _ hd)) total bound]

theorem exponent_digits (negative : Bool) (sig : Nat) (start : Int) (down : Bool) {n : Nat}
    (bound : n < 0x80000000) {rest : Bytes} (stop : ∀ b ∈ rest.head?, isDigit b = false) :
    exponent negative sig start
      (Utf8.encode ((if down then '-' else '+') :: Nat.toDigits 10 n) ++ rest) =
        float negative sig (if down then start - n else start + n) rest := by
  obtain ⟨some, digits, -⟩ := toDigits_whole n
  have total := Integer.digitsValue_toDigits n
  obtain ⟨c, cs, written⟩ := List.exists_cons_of_ne_nil some
  rw [written] at digits total ⊢
  obtain ⟨octet, -, isdigit, value⟩ := octet_digit (digits c List.mem_cons_self)
  have first : Integer.digitsValue [c] = c.toNat - 0x30 := by
    rw [Integer.digitsValue, List.foldl_cons, Nat.zero_mul, Nat.zero_add, List.foldl_nil]
  rw [← List.singleton_append, digitsValue_append, first] at total
  have read := exponentDigits_digits (fun d hd => digits d (List.mem_cons_of_mem _ hd)) stop
    total bound
  have plus : asChar 0x2B = '+' := by decide
  have minus : asChar 0x2D = '-' := by decide
  have other : ¬ '-' = '+' := by decide
  have split (sign : UInt8) : sign :: (Utf8.encode (c :: cs) ++ rest) =
      sign :: .ofNat c.toNat :: (Utf8.encode cs ++ rest) := by
    rw [Utf8.encode_cons, octet, List.singleton_append, List.cons_append]
  cases down with
  | true =>
    have signed : Utf8.encode ((if true = true then '-' else '+') :: c :: cs) ++ rest =
        0x2D :: (Utf8.encode (c :: cs) ++ rest) := rfl
    rw [signed, split]
    simp only [exponent, minus, if_neg other, if_true, isdigit, Bool.not_true, Bool.false_eq_true,
      if_false, value, read]
  | false =>
    have signed : Utf8.encode ((if false = true then '-' else '+') :: c :: cs) ++ rest =
        0x2B :: (Utf8.encode (c :: cs) ++ rest) := rfl
    rw [signed, split]
    simp only [exponent, plus, if_true, isdigit, Bool.not_true, Bool.false_eq_true, if_false, value,
      read]

/-- An exponent behind the digits of a significand. -/
theorem scaled_exponent (negative : Bool) (sig : Nat) (start : Int) {e : Int}
    (small : e.natAbs < 0x80000000) {rest : Bytes} (stop : ∀ b ∈ rest.head?, isDigit b = false) :
    scaled negative sig start
      (0x65 :: (Utf8.encode ((if e < 0 then '-' else '+') :: Nat.toDigits 10 e.natAbs) ++ rest)) =
        float negative sig (start + e) rest := by
  have read := exponent_digits negative sig start (decide (e < 0)) small stop
  have is_mark : isExponentMark 0x65 = true := by decide
  simp only [decide_eq_true_eq] at read
  rw [scaled, if_pos is_mark, read]
  congr 1
  split <;> omega

/-! ## The text of a decimal -/

theorem digitsValue_zeros (n : Nat) (cs : List Char) :
    Integer.digitsValue (List.replicate n '0' ++ cs) = Integer.digitsValue cs := by
  induction n with
  | zero => rfl
  | succ n ih => exact ih

theorem digitsValue_append_zeros (cs : List Char) (n : Nat) :
    Integer.digitsValue (cs ++ List.replicate n '0') = Integer.digitsValue cs * 10 ^ n := by
  induction n with
  | zero => rw [List.replicate_zero, List.append_nil, Nat.pow_zero, Nat.mul_one]
  | succ n ih =>
    rw [List.replicate_succ', ← List.append_assoc, digitsValue_append, ih, Nat.pow_succ,
      ← Nat.mul_assoc]
    rfl

theorem isDigit_zeros (n : Nat) : ∀ c ∈ List.replicate n '0', Integer.isDigit c = true := by
  intro c hc
  rw [List.eq_of_mem_replicate hc]
  decide

theorem whole_zero : Whole ['0'] where
  some := List.cons_ne_nil _ _
  digits := isDigit_zeros 1
  front _ same := (List.cons.inj same).2.symm

theorem part_zero : Part ['0'] := ⟨List.cons_ne_nil _ _, isDigit_zeros 1⟩

/-- Of a number that is not zero, the digits and any of the first of them may begin a number. -/
theorem whole_of_toDigits {n : Nat} (pos : 0 < n) {k : Nat} (first : 0 < k) (cs : List Char)
    (digits : ∀ c ∈ cs, Integer.isDigit c = true) : Whole ((Nat.toDigits 10 n).take k ++ cs) := by
  obtain ⟨c, ds, written, head⟩ := toDigits_head n
  have all := (toDigits_whole n).2.1
  obtain ⟨k, rfl⟩ : ∃ j, k = j + 1 := Nat.exists_eq_succ_of_ne_zero first.ne'
  rw [written] at all ⊢
  refine ⟨List.cons_ne_nil _ _, fun d hd => ?_, fun es same => ?_⟩
  · rcases List.mem_append.mp hd with front | back
    · exact all d (List.mem_of_mem_take front)
    · exact digits d back
  · obtain ⟨zero, -⟩ := List.cons.inj same
    have none := (head zero).2
    omega

section

variable {d : Decimal} (pos : 0 < d.digits) (negative : Bool) {rest : Bytes}
  (stop : ∀ b ∈ rest.head?, isDigit b = false)

include stop

/-- A point before the digits. -/
theorem read_below (point : ((Nat.toDigits 10 d.digits).length : Int) + d.exponent ≤ 0)
    (bound : d.digits < 0x10000000000000000) :
    read negative (Utf8.encode (Double.positional (Nat.toDigits 10 d.digits)
      ((Nat.toDigits 10 d.digits).length + d.exponent)) ++ rest) =
        scaled negative d.digits d.exponent rest := by
  obtain ⟨some, digits, -⟩ := toDigits_whole d.digits
  rw [Double.positional, if_pos point, Double.zeros]
  generalize zeros : (-((Nat.toDigits 10 d.digits).length + d.exponent : Int)).toNat = k
  have behind : Part (List.replicate k '0' ++ Nat.toDigits 10 d.digits) := by
    refine ⟨fun none => some (List.append_eq_nil_iff.mp none).2, fun c hc => ?_⟩
    rcases List.mem_append.mp hc with zero | digit
    · exact isDigit_zeros k c zero
    · exact digits c digit
  have total : Integer.digitsValue (['0'] ++ (List.replicate k '0' ++ Nat.toDigits 10 d.digits)) =
      d.digits := by
    rw [← List.append_assoc, ← List.replicate_one, ← List.replicate_add, digitsValue_zeros,
      Integer.digitsValue_toDigits]
  have read := read_point negative whole_zero behind (by rwa [total]) stop
  have exponent : -((List.replicate k '0' ++ Nat.toDigits 10 d.digits).length : Int) =
      d.exponent := by
    rw [List.length_append, List.length_replicate]
    omega
  rw [total, exponent] at read
  exact read

include pos

/-- A point behind all digits, with zeros between them. -/
theorem read_above (point : 0 ≤ d.exponent)
    (bound : d.digits * 10 ^ (d.exponent.toNat + 1) < 0x10000000000000000) :
    read negative (Utf8.encode (Double.positional (Nat.toDigits 10 d.digits)
      ((Nat.toDigits 10 d.digits).length + d.exponent)) ++ rest) =
        scaled negative (d.digits * 10 ^ (d.exponent.toNat + 1)) (-1) rest := by
  obtain ⟨some, digits, -⟩ := toDigits_whole d.digits
  have length := Nat.length_toDigits_pos (b := 10) (n := d.digits)
  rw [Double.positional, if_neg (by omega), if_pos (by omega), Double.zeros]
  generalize zeros : ((Nat.toDigits 10 d.digits).length + d.exponent -
    (Nat.toDigits 10 d.digits).length : Int).toNat = k
  obtain rfl : d.exponent.toNat = k := by omega
  have before := whole_of_toDigits pos length _ (isDigit_zeros d.exponent.toNat)
  rw [List.take_length] at before
  have total : Integer.digitsValue
      ((Nat.toDigits 10 d.digits ++ List.replicate d.exponent.toNat '0') ++ ['0']) =
        d.digits * 10 ^ (d.exponent.toNat + 1) := by
    rw [List.append_assoc, ← List.replicate_succ', digitsValue_append_zeros,
      Integer.digitsValue_toDigits]
  have read := read_point negative before part_zero (by rwa [total]) stop
  rw [total] at read
  exact read

/-- A point among the digits. -/
theorem read_among (low : 0 < ((Nat.toDigits 10 d.digits).length : Int) + d.exponent)
    (high : d.exponent < 0) (bound : d.digits < 0x10000000000000000) :
    read negative (Utf8.encode (Double.positional (Nat.toDigits 10 d.digits)
      ((Nat.toDigits 10 d.digits).length + d.exponent)) ++ rest) =
        scaled negative d.digits d.exponent rest := by
  obtain ⟨some, digits, -⟩ := toDigits_whole d.digits
  rw [Double.positional, if_neg (by omega), if_neg (by omega)]
  generalize point : ((Nat.toDigits 10 d.digits).length + d.exponent : Int).toNat = k
  have before := whole_of_toDigits pos (by omega : 0 < k) [] (fun c hc => absurd hc List.not_mem_nil)
  rw [List.append_nil] at before
  have behind : Part ((Nat.toDigits 10 d.digits).drop k) :=
    ⟨fun none => by have := List.drop_eq_nil_iff.mp none; omega,
      fun c hc => digits c (List.mem_of_mem_drop hc)⟩
  have total : Integer.digitsValue ((Nat.toDigits 10 d.digits).take k ++
      (Nat.toDigits 10 d.digits).drop k) = d.digits := by
    rw [List.take_append_drop, Integer.digitsValue_toDigits]
  have read := read_point negative before behind (by rwa [total]) stop
  have exponent : -(((Nat.toDigits 10 d.digits).drop k).length : Int) = d.exponent := by
    rw [List.length_drop]
    omega
  rw [total, exponent] at read
  exact read

/-- One digit before the point, and an exponent. -/
theorem read_scientific (bound : d.digits < 0x10000000000000000)
    (small : (((Nat.toDigits 10 d.digits).length : Int) + d.exponent - 1).natAbs < 0x80000000) :
    read negative (Utf8.encode (Double.scientific (Nat.toDigits 10 d.digits)
      ((Nat.toDigits 10 d.digits).length + d.exponent)) ++ rest) =
        float negative d.digits d.exponent rest := by
  have digits := (toDigits_whole d.digits).2.1
  have value := Integer.digitsValue_toDigits d.digits
  have whole := whole_of_toDigits pos (by decide : 0 < 1) []
    (fun c hc => absurd hc List.not_mem_nil)
  rw [List.append_nil] at whole
  obtain ⟨c, cs, written⟩ := List.exists_cons_of_ne_nil (toDigits_whole d.digits).1
  rw [written] at digits value small whole
  have first : Whole [c] := whole
  clear whole
  rw [written]
  generalize place : ((c :: cs).length + d.exponent - 1 : Int) = e at small
  have mark (start : Int) := scaled_exponent negative d.digits start small stop
  have split (ms ts : List Char) : Utf8.encode (ms ++ 'e' :: ts) ++ rest =
      Utf8.encode ms ++ 0x65 :: (Utf8.encode ts ++ rest) := by
    rw [Utf8.encode_append, List.append_assoc]
    rfl
  cases cs with
  | nil =>
    have text : Double.scientific [c] ([c].length + d.exponent) =
        [c] ++ 'e' :: (if e < 0 then '-' else '+') :: Nat.toDigits 10 e.natAbs := by
      rw [← place]
      rfl
    rw [List.length_singleton] at place
    rw [text, split, read_mark negative first (by rwa [value]), value, mark]
    congr 1
    omega
  | cons d' cs =>
    have text : Double.scientific (c :: d' :: cs) ((c :: d' :: cs).length + d.exponent) =
        ([c] ++ '.' :: d' :: cs) ++ 'e' :: (if e < 0 then '-' else '+') ::
          Nat.toDigits 10 e.natAbs := by
      rw [← place]
      rfl
    have behind : Part (d' :: cs) :=
      ⟨List.cons_ne_nil _ _, fun a ha => digits a (List.mem_cons_of_mem c ha)⟩
    have total : Integer.digitsValue ([c] ++ d' :: cs) = d.digits := value
    have before_mark (bs : Bytes) : ∀ b ∈ ((0x65 : UInt8) :: bs).head?, isDigit b = false := by
      rintro b ⟨⟩
      decide
    rw [List.length_cons] at place
    rw [text, split, read_point negative first behind (by rwa [total]) (before_mark _), total, mark]
    congr 1
    omega

end

/-- The text of a decimal of doubles, without a sign. -/
def written (d : Decimal) : List Char :=
  let digits := Nat.toDigits 10 d.digits
  let point := digits.length + d.exponent
  if -4 ≤ point ∧ point ≤ 16 then Double.positional digits point
  else Double.scientific digits point

theorem written_head (d : Decimal) : ∃ c cs, written d = c :: cs ∧ Integer.isDigit c = true := by
  obtain ⟨c, cs, split, -⟩ := toDigits_head d.digits
  have digit := (toDigits_whole d.digits).2.1 c (split ▸ List.mem_cons_self)
  simp only [written, split, Double.positional]
  split
  · split
    · exact ⟨'0', _, rfl, by decide⟩
    · next above =>
      split
      · exact ⟨c, _, rfl, digit⟩
      · obtain ⟨k, point⟩ : ∃ k, (((c :: cs).length : Int) + d.exponent).toNat = k + 1 :=
          Nat.exists_eq_succ_of_ne_zero (by omega)
        rw [point]
        exact ⟨c, _, rfl, digit⟩
  · cases cs with
    | nil => exact ⟨c, _, rfl, digit⟩
    | cons d' cs => exact ⟨c, _, rfl, digit⟩

/-- The decimal that the text is read as: where the point is behind all digits, the zero behind it
counts as a further one. -/
def gathered (d : Decimal) : Decimal :=
  if 0 ≤ d.exponent ∧ (Nat.toDigits 10 d.digits).length + d.exponent ≤ 16 then
    ⟨d.digits * 10 ^ (d.exponent.toNat + 1), -1⟩
  else d

theorem value_gathered (d : Decimal) : (gathered d).value = d.value := by
  rw [gathered]
  split
  · next whole =>
    obtain ⟨n, e⟩ := d
    obtain ⟨k, rfl⟩ := Int.eq_ofNat_of_zero_le whole.1
    rw [Decimal.value, Decimal.value, Int.toNat_natCast, Nat.cast_mul, Nat.cast_pow, mul_assoc,
      zpow_neg_one, zpow_natCast, Nat.cast_ofNat, pow_succ, mul_inv_cancel_right₀ (by norm_num)]
  · rfl

/-- Decimals as they are written of doubles. -/
structure Short (d : Decimal) : Prop where
  pos : 0 < d.digits
  digits : d.digits ≤ 10 ^ 17
  low : -341 < d.exponent
  high : d.exponent < 309

section

variable {d : Decimal} (short : Short d)

include short

theorem length_bounds : ∃ k < 18, (Nat.toDigits 10 d.digits).length = k + 1 ∧
    d.digits < 10 ^ (k + 1) := by
  obtain ⟨k, long, least, less⟩ := exists_length_toDigits short.pos
  have few : k < 18 := lt_of_pow_le (lt_of_le_of_lt short.digits (by decide)) least
  exact ⟨k, few, long, less⟩

theorem gathered_digits : 0 < (gathered d).digits ∧ (gathered d).digits ≤ 10 ^ 17 := by
  rw [gathered]
  split
  · next whole =>
    obtain ⟨k, -, long, less⟩ := length_bounds short
    rw [long] at whole
    refine ⟨Nat.mul_pos short.pos (Nat.pow_pos (by decide)), ?_⟩
    calc d.digits * 10 ^ (d.exponent.toNat + 1)
        ≤ 10 ^ (k + 1) * 10 ^ (d.exponent.toNat + 1) := Nat.mul_le_mul_right _ less.le
      _ = 10 ^ (k + 1 + (d.exponent.toNat + 1)) := (Nat.pow_add _ _ _).symm
      _ ≤ 10 ^ 17 := Nat.pow_le_pow_right (by decide) (by omega)
  · exact ⟨short.pos, short.digits⟩

/-- The digits of the text are those of the decimal, with the zeros that were put behind them. -/
theorem read_written (negative : Bool) {rest : Bytes} (ends : EndsNumber rest) :
    read negative (Utf8.encode (written d) ++ rest) =
      float negative (gathered d).digits (gathered d).exponent rest := by
  obtain ⟨k, few, long, -⟩ := length_bounds short
  have pos := short.pos
  have bound : d.digits < 0x10000000000000000 := lt_of_le_of_lt short.digits (by decide)
  have bound' : (gathered d).digits < 0x10000000000000000 :=
    lt_of_le_of_lt (gathered_digits short).2 (by decide)
  have stop : ∀ b ∈ rest.head?, isDigit b = false := fun b hb => (ends b hb).1
  have low := short.low
  have high := short.high
  simp only [written]
  split
  · next plain =>
    rw [← scaled_ends negative _ _ ends]
    by_cases whole : 0 ≤ d.exponent
    · rw [gathered, if_pos ⟨whole, plain.2⟩] at bound' ⊢
      exact read_above pos negative stop whole bound'
    · rw [gathered, if_neg (fun both => whole both.1)]
      by_cases below : ((Nat.toDigits 10 d.digits).length : Int) + d.exponent ≤ 0
      · exact read_below negative stop below bound
      · exact read_among pos negative stop (by omega) (by omega) bound
  · next far =>
    rw [gathered, if_neg (by omega)]
    exact read_scientific pos negative stop bound (by omega)

end

/-! ## The text of a double -/

open Double

/-- A decimal without a part behind the point is a whole number. -/
theorem value_whole (n k : Nat) : (⟨n, k⟩ : Decimal).value = (n * 10 ^ k : Nat) := by
  rw [Decimal.value, zpow_natCast]
  push_cast
  rfl

section

variable {x : Double} (finite : x.isFinite = true) (nonzero : x.magnitude ≠ 0)

theorem shortest_largest : ([true, false].all fun negative =>
    (ofMagnitude negative largest).shortest == ⟨17976931348623157, (292 : Nat)⟩) = true := by
  decide +kernel

include finite nonzero

/-- Though it is rounded, the shortest decimal of the largest double is not above it. -/
theorem shortest_le_largest : x.shortest.value ≤ Double.value largest := by
  rw [isFinite, decide_eq_true_eq] at finite
  have le : x.magnitude ≤ largest := Nat.le_pred_of_lt finite
  -- The midpoint above the largest double would be out of range, so its decimal is computed.
  rcases Nat.lt_or_eq_of_le le with less | same
  · exact (shortest_stands nonzero).1.upper.trans (mid_lt_value less).le
  · have largest_shortest := List.all_eq_true.mp shortest_largest x.isNegative (by simp)
    rw [beq_iff_eq, ← same, ofMagnitude_magnitude] at largest_shortest
    have below : 17976931348623157 * 10 ^ 292 ≤ largestWhole := by decide +kernel
    rw [largest_shortest, value_whole, value_largest]
    exact Nat.cast_le.mpr below

theorem shortest_short : Short x.shortest := by
  obtain ⟨near, pos, digits⟩ := shortest_stands nonzero
  have reach := shortest_le_largest finite nonzero
  generalize x.shortest = d at *
  obtain ⟨n, e⟩ := d
  refine ⟨pos, digits, ?_, ?_⟩ <;> dsimp only at pos digits ⊢ <;> by_contra far
  · obtain ⟨k, rfl⟩ : ∃ k : Nat, e = -k := ⟨e.natAbs, by omega⟩
    rw [Decimal.value, zpow_neg, zpow_natCast, ← div_eq_mul_inv] at near
    have reached := negative_power_lt digits nonzero near
    omega
  · obtain ⟨k, rfl⟩ := Int.eq_ofNat_of_zero_le (by omega : 0 ≤ e)
    rw [value_whole, value_largest] at reach
    have low := power_lt pos (Nat.cast_le.mp reach)
    omega

end

/-- The text of a double without its sign. -/
def unsigned (x : Double) : List Char := if x.isZero then ['0', '.', '0'] else written x.shortest

theorem toList_text (x : Double) :
    x.text.toList = (if x.isNegative then ['-'] else []) ++ unsigned x := by
  rw [Double.text, unsigned]
  split <;> exact String.toList_ofList

/-- The digits of the text, read as a whole number, and the power of ten that scales it are doubles. -/
def Exact (x : Double) : Prop :=
  (gathered x.shortest).digits < 2 ^ 53 ∧ (gathered x.shortest).exponent.natAbs ≤ 22

instance (x : Double) : Decidable (Exact x) := inferInstanceAs (Decidable (_ ∧ _))

/-- What the text of a double is read as: a double that is finite too, with the same sign, and no
more than a few places off. -/
structure ComesBack (x y : Double) : Prop where
  finite : y.isFinite = true
  sign : y.isNegative = x.isNegative
  apart : Apart (scalingPlaces (gathered x.shortest).exponent) x.magnitude y.magnitude
  same : Exact x → y = x

theorem unsigned_head (x : Double) : ∃ c cs, unsigned x = c :: cs ∧ Integer.isDigit c = true := by
  rw [unsigned]
  split
  · exact ⟨'0', _, rfl, by decide⟩
  · exact written_head _

theorem read_zero (negative : Bool) {rest : Bytes} (ends : EndsNumber rest) :
    read negative (Utf8.encode ['0', '.', '0'] ++ rest) =
      .ok (.float (ofMagnitude negative 0), rest) := by
  have zero : scale 4 (.ofNat 0) (-1) = some (ofMagnitude false 0) := by decide +kernel
  have read := read_point negative whole_zero part_zero (by decide) fun b hb => (ends b hb).1
  rw [scaled_ends negative _ _ ends] at read
  refine read.trans ?_
  have total : Integer.digitsValue (['0'] ++ ['0']) = 0 := by decide
  rw [total, float, List.length_singleton, Nat.cast_one, zero]
  cases negative <;> rfl

/-- A significand that is scaled to a magnitude is read with the sign before it. -/
theorem float_scaled {sig n : Nat} {e : Int} (finite : n < infiniteMagnitude)
    (scaled : scale 4 (.ofNat sig) e = some (ofMagnitude false n)) (negative : Bool)
    (rest : Bytes) : float negative sig e rest = .ok (.float (ofMagnitude negative n), rest) := by
  rw [float, scaled]
  cases negative with
  | false => rfl
  | true =>
    have negated : (ofMagnitude false n).negate = ofMagnitude true n := by
      rw [negate, isNegative_ofMagnitude finite.le, magnitude_ofMagnitude finite.le, Bool.not_false]
    dsimp only
    rw [if_pos rfl, negated]

/-- The text of a finite double is read as a finite double. -/
theorem read_unsigned {x : Double} (finite : x.isFinite = true) :
    ∃ n, ComesBack x (ofMagnitude x.isNegative n) ∧ ∀ negative rest, EndsNumber rest →
      read negative (Utf8.encode (unsigned x) ++ rest) =
        .ok (.float (ofMagnitude negative n), rest) := by
  rw [unsigned]
  split
  · next zero =>
    rw [isZero, beq_iff_eq] at zero
    refine ⟨0, ?_, fun negative rest ends => read_zero negative ends⟩
    rw [← zero, ofMagnitude_magnitude]
    exact ⟨finite, rfl, .refl _ _, fun _ => rfl⟩
  · next nonzero =>
    rw [isZero, beq_iff_eq] at nonzero
    have short := shortest_short finite nonzero
    obtain ⟨pos, digits⟩ := gathered_digits short
    have near := (shortest_stands nonzero).1
    have reach := shortest_le_largest finite nonzero
    rw [← value_gathered, Decimal.value] at near reach
    obtain ⟨n, scaled, small, apart, same⟩ := scale_near pos digits nonzero near reach
    have magnitude := magnitude_ofMagnitude small.le x.isNegative
    refine ⟨n, ⟨?_, isNegative_ofMagnitude small.le _, by rwa [magnitude], fun exact => ?_⟩,
      fun negative rest ends => ?_⟩
    · rw [isFinite, magnitude, decide_eq_true_eq]
      exact small
    · rw [same exact.1 exact.2, ofMagnitude_magnitude]
    · rw [read_written short negative ends, float_scaled small scaled]

end Number

open Number in
/-- **Doubles through text.** What is written of a finite double begins a value, and with whatever
ends a number behind it is read as a double that is no more than a few places off. -/
theorem scalar_text {x : Double} (finite : x.isFinite = true) :
    ∃ b bs, Utf8.encode x.text.toList = b :: bs ∧ OpensScalar b ∧
      ∃ y, ComesBack x y ∧ ∀ rest, EndsNumber rest → scalar b (bs ++ rest) = .ok (.float y, rest) := by
  obtain ⟨n, comes, reads⟩ := read_unsigned finite
  rw [toList_text]
  cases negative : x.isNegative with
  | true =>
    rw [negative] at comes
    exact ⟨0x2D, Utf8.encode (unsigned x), rfl, ⟨by decide, by decide, by decide, by decide⟩,
      _, comes, fun rest ends => reads true rest ends⟩
  | false =>
    rw [negative] at comes
    obtain ⟨c, cs, split, digit⟩ := unsigned_head x
    obtain ⟨octet, -, isdigit, -⟩ := octet_digit digit
    have first : Utf8.encode (unsigned x) = .ofNat c.toNat :: Utf8.encode cs := by
      rw [split, Utf8.encode_cons, octet, List.singleton_append]
    refine ⟨_, _, first, opensScalar_digit isdigit, _, comes, fun rest ends => ?_⟩
    rw [scalar_digit isdigit, ← List.cons_append, ← first, reads false rest ends]

end NamedStores.Json
