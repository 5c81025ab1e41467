/-
IPv6 addresses read back as written. What is read is eight pieces of 16 bits; written in the
one canonical way, they are read as the same eight. A `::` stands for a longest run of zeros,
which are the pieces that filling it puts in again.
-/
import NamedStores.Proofs.Text.Integer
import NamedStores.Url.Ipv6

namespace NamedStores.Ipv6

/-! ## Digits -/

theorem value?_digitChar {k : Nat} (hk : k < 16) : Hex.value? (Nat.digitChar k) = some k := by
  have all : ∀ k < 16, Hex.value? (Nat.digitChar k) = some k := by decide
  exact all k hk

theorem mem_numeral {n : Nat} {c : Char} (h : c ∈ Hex.numeral n) :
    ∃ k < 16, c = Nat.digitChar k :=
  Integer.exists_of_mem_toDigits (by decide) h

theorem value?_of_mem_numeral {n : Nat} {c : Char} (h : c ∈ Hex.numeral n) :
    (Hex.value? c).isSome = true := by
  obtain ⟨k, hk, rfl⟩ := mem_numeral h
  rw [value?_digitChar hk]
  rfl

theorem numeral_ne_nil (n : Nat) : Hex.numeral n ≠ [] := Nat.toDigits_ne_nil

theorem length_numeral {n : Nat} (hn : n < 0x10000) : (Hex.numeral n).length ≤ 4 :=
  (Nat.length_toDigits_le_iff (by decide) (by decide)).mpr hn

theorem numberOf_append (base : Nat) (ds : List Char) (c : Char) :
    numberOf base (ds ++ [c]) = numberOf base ds * base + (Hex.value? c).getD 0 := by
  rw [numberOf, List.foldl_append]
  rfl

theorem numberOf_numeral (n : Nat) : numberOf 16 (Hex.numeral n) = n := by
  induction n using Nat.base_induction 16 (by decide) with
  | single m hm =>
    rw [Hex.numeral, Nat.toDigits_of_lt_base hm, numberOf]
    simp only [List.foldl_cons, List.foldl_nil, value?_digitChar hm, Option.getD_some]
    omega
  | digit m k hk hm ih =>
    rw [Hex.numeral, ← Nat.toDigits_append_toDigits (by decide) hm hk, Nat.toDigits_of_lt_base hk,
      numberOf_append, value?_digitChar hk, Option.getD_some]
    rw [Hex.numeral] at ih
    rw [ih]
    omega

theorem value?_lt {c : Char} {v : Nat} (h : Hex.value? c = some v) : v < 16 := by
  simp only [Hex.value?] at h
  split at h
  · cases h; omega
  · split at h
    · cases h; omega
    · split at h
      · cases h; omega
      · cases h

theorem numberOf_lt (ds : List Char) : numberOf 16 ds < Nat.pow 16 ds.length := by
  have step : ∀ (ds : List Char) (acc bound : Nat), acc < bound →
      ds.foldl (fun n c => n * 16 + (Hex.value? c).getD 0) acc < bound * 16 ^ ds.length := by
    intro ds
    induction ds with
    | nil => intro acc bound h; simpa using h
    | cons c ds ih =>
      intro acc bound h
      have digit : (Hex.value? c).getD 0 < 16 := by
        cases v : Hex.value? c with
        | none => decide
        | some n => exact value?_lt v
      have next := ih (acc * 16 + (Hex.value? c).getD 0) (bound * 16) (by omega)
      rw [List.foldl_cons, List.length_cons, Nat.pow_succ', ← Nat.mul_assoc]
      exact next
  have all := step ds 0 1 (by decide)
  rwa [Nat.one_mul] at all

/-! ## What is read -/

/-- A piece has 16 bits. -/
def Fits (ns : List Nat) : Prop := ∀ n ∈ ns, n < 0x10000

/-- Pieces being read: each has 16 bits, and they are no more than eight. -/
structure Pieces.Sound (p : Pieces) : Prop where
  before : Fits p.before
  after : ∀ tail ∈ p.after, Fits tail
  count : p.count ≤ 8

theorem fits_append {ns ms : List Nat} (hn : Fits ns) (hm : Fits ms) : Fits (ns ++ ms) := by
  intro n h
  rcases List.mem_append.mp h with left | right
  · exact hn n left
  · exact hm n right

theorem Pieces.count_add (p : Pieces) (ns : List Nat) :
    (p.add ns).count = p.count + ns.length := by
  obtain ⟨before, after⟩ := p
  cases after with
  | none => simp [add, count]
  | some tail => simp [add, count]; omega

theorem Pieces.Sound.add {p : Pieces} (h : p.Sound) {ns : List Nat} (fits : Fits ns)
    (room : p.count + ns.length ≤ 8) : (p.add ns).Sound := by
  obtain ⟨before, after⟩ := p
  have total := Pieces.count_add ⟨before, after⟩ ns
  cases after with
  | none => exact ⟨fits_append h.before fits, (fun _ ht => by cases ht), by omega⟩
  | some tail =>
    refine ⟨h.before, fun more ht => ?_, by omega⟩
    cases ht
    exact fits_append (h.after tail rfl) fits

theorem byteNumber_lt {cs rest : List Char} {n : Nat} (h : byteNumber cs = some (n, rest)) :
    n < 256 := by
  simp only [byteNumber] at h
  split at h
  · cases h
  · cases h; omega

theorem decimalTail_fits {cs : List Char} {ns : List Nat} (h : decimalTail cs = some ns) :
    Fits ns ∧ ns.length = 2 := by
  have point_lt {r rest : List Char} {n : Nat} (h : decimalTail.point r = some (n, rest)) :
      n < 256 := by
    unfold decimalTail.point at h
    split at h
    · exact byteNumber_lt h
    · cases h
  simp only [decimalTail, Option.bind_eq_bind, Option.bind_eq_some_iff] at h
  obtain ⟨⟨a, r⟩, ha, ⟨b, r'⟩, hb, ⟨c, r''⟩, hc, ⟨d, r'''⟩, hd, h⟩ := h
  have := byteNumber_lt ha
  have := point_lt hb
  have := point_lt hc
  have := point_lt hd
  split at h
  · cases h
    refine ⟨fun n hn => ?_, rfl⟩
    simp only [List.mem_cons, List.not_mem_nil, or_false] at hn
    rcases hn with rfl | rfl <;> omega
  · cases h

theorem numberOf_fits {ds : List Char} (short : ds.length ≤ 4) : Fits [numberOf 16 ds] := by
  intro n hn
  rw [List.mem_singleton.mp hn]
  exact Nat.lt_of_lt_of_le (numberOf_lt ds) (Nat.pow_le_pow_right (by decide) short)

/-- One step: a gap is opened, a piece ends the text or is followed by another, or the text ends
in decimal numbers. -/
theorem readPieces_cases {fuel : Nat} {p q : Pieces} {c : Char} {cs : List Char}
    (h : readPieces (fuel + 1) p (c :: cs) = some q) :
    p.count ≠ 8 ∧
      ((p.after = none ∧ readPieces fuel ⟨p.before, some []⟩ cs = some q) ∨
        (∃ n, Fits [n] ∧ (q = p.add [n] ∨ ∃ more, readPieces fuel (p.add [n]) more = some q)) ∨
        (p.count ≤ 6 ∧ ∃ ns, decimalTail (c :: cs) = some ns ∧ q = p.add ns)) := by
  have short : (((c :: cs).take 4).takeWhile fun c => (Hex.value? c).isSome).length ≤ 4 :=
    Nat.le_trans (List.takeWhile_sublist _).length_le (List.length_take_le 4 _)
  simp only [readPieces] at h
  split at h
  · cases h
  · rename_i notFull
    refine ⟨notFull, ?_⟩
    split at h
    · split at h
      · cases h
      · rename_i gapless
        exact .inl ⟨gapless, h⟩
    · split at h
      · cases h
        exact .inr (.inl ⟨_, numberOf_fits short, .inl rfl⟩)
      · split at h
        · cases h
        · rename_i room
          obtain ⟨ns, tail, rfl⟩ := Option.map_eq_some_iff.mp h
          exact .inr (.inr ⟨by omega, ns, tail, rfl⟩)
      · split at h
        · cases h
        · exact .inr (.inl ⟨_, numberOf_fits short, .inr ⟨_, h⟩⟩)
      · cases h

theorem readPieces_sound {fuel : Nat} {p q : Pieces} {cs : List Char} (hp : p.Sound)
    (h : readPieces fuel p cs = some q) : q.Sound := by
  induction fuel generalizing p cs with
  | zero =>
    cases cs with
    | nil => cases h; exact hp
    | cons c cs => cases h
  | succ fuel ih =>
    cases cs with
    | nil => cases h; exact hp
    | cons c cs =>
      have room := hp.count
      obtain ⟨notFull, opened | ⟨n, fits, ended⟩ | ⟨space, ns, tail, rfl⟩⟩ := readPieces_cases h
      · obtain ⟨gapless, rest⟩ := opened
        have open_count : p.count = p.before.length := by rw [Pieces.count, gapless]
        refine ih (p := ⟨p.before, some []⟩) ⟨hp.before, fun tail ht => ?_, ?_⟩ rest
        · cases ht
          exact fun n hn => absurd hn List.not_mem_nil
        · simp only [Pieces.count, List.length_nil]
          omega
      · have sound := hp.add fits (by simp only [List.length_singleton]; omega)
        rcases ended with rfl | ⟨more, rest⟩
        · exact sound
        · exact ih sound rest
      · obtain ⟨fits, two⟩ := decimalTail_fits tail
        exact hp.add fits (by omega)

theorem Pieces.Sound.fill {p : Pieces} (h : p.Sound) {ns : List Nat} (filled : p.fill = some ns) :
    Fits ns ∧ ns.length = 8 := by
  obtain ⟨before, after⟩ := p
  cases after with
  | none =>
    simp only [Pieces.fill] at filled
    split at filled
    · cases filled
      exact ⟨h.before, by assumption⟩
    · cases filled
  | some tail =>
    have room : before.length + 1 + tail.length ≤ 8 := h.count
    cases filled
    refine ⟨fits_append (fits_append h.before fun n hn => ?_) (h.after tail rfl), ?_⟩
    · rw [List.eq_of_mem_replicate hn]
      decide
    · simp only [List.length_append, List.length_replicate]
      omega

/-- What is read is eight pieces of 16 bits. -/
theorem ofChars?_fits {cs : List Char} {ns : List Nat} (h : ofChars? cs = some ns) :
    Fits ns ∧ ns.length = 8 := by
  have empty : Fits [] := fun n hn => absurd hn List.not_mem_nil
  have read {fuel : Nat} {p : Pieces} {cs : List Char} (hp : p.Sound)
      (h : (readPieces fuel p cs).bind Pieces.fill = some ns) : Fits ns ∧ ns.length = 8 := by
    obtain ⟨q, hq, filled⟩ := Option.bind_eq_some_iff.mp h
    exact (readPieces_sound hp hq).fill filled
  unfold ofChars? at h
  split at h
  · cases h
  · cases h
  · exact read ⟨empty, (fun tail ht => by cases ht; exact empty), by decide⟩ h
  · cases h
  · exact read ⟨empty, (fun tail ht => by cases ht), by decide⟩ h

/-! ## What is written -/

theorem colons_cons (n : Nat) {ns : List Nat} (h : ns ≠ []) :
    colons (n :: ns) = Hex.numeral n ++ ':' :: colons ns := by
  cases ns with
  | nil => exact absurd rfl h
  | cons m ns => rfl

theorem mem_colons {ns : List Nat} {c : Char} (h : c ∈ colons ns) :
    c = ':' ∨ ∃ k < 16, c = Nat.digitChar k := by
  induction ns with
  | nil => exact absurd h List.not_mem_nil
  | cons n ns ih =>
    cases ns with
    | nil => exact .inr (mem_numeral h)
    | cons m ns =>
      rcases List.mem_append.mp h with digit | rest
      · exact .inr (mem_numeral digit)
      · rcases List.mem_cons.mp rest with rfl | later
        · exact .inl rfl
        · exact ih later

/-- Only colons and hex digits are written. -/
theorem mem_toChars {ns : List Nat} {c : Char} (h : c ∈ toChars ns) :
    c = ':' ∨ ∃ k < 16, c = Nat.digitChar k := by
  unfold toChars at h
  split at h
  · exact mem_colons h
  · simp only [List.mem_append, List.mem_cons, List.not_mem_nil, or_false] at h
    rcases h with (front | rfl | rfl) | back
    · exact mem_colons front
    · exact .inl rfl
    · exact .inl rfl
    · exact mem_colons back

theorem eq_zeros_append (ns : List Nat) :
    ns = List.replicate (zeroRun ns) 0 ++ ns.drop (zeroRun ns) := by
  induction ns with
  | nil => rfl
  | cons n ns ih =>
    cases n with
    | zero =>
      have longer : zeroRun (0 :: ns) = zeroRun ns + 1 := rfl
      rw [longer, List.replicate_succ, List.drop_succ_cons, List.cons_append, ← ih]
    | succ n => rfl

/-- The run left out is one of at least two zeros. -/
theorem longestRun_some {ns : List Nat} {i n : Nat} (h : longestRun ns = some (i, n)) :
    2 ≤ n ∧ n = zeroRun (ns.drop i) := by
  let IsRun (best : Option (Nat × Nat)) : Prop :=
    ∀ i n, best = some (i, n) → 2 ≤ n ∧ n = zeroRun (ns.drop i)
  have kept : IsRun (longestRun ns) := by
    refine List.foldlRecOn _ _ (fun _ _ h => by cases h) fun best known j _ i n h => ?_
    simp only at h
    split at h
    · split at h
      · cases h; exact ⟨by assumption, rfl⟩
      · cases h
    · rename_i start m
      have before := known start m rfl
      split at h
      · cases h; exact ⟨by omega, rfl⟩
      · cases h; exact before
  exact kept i n h

/-- The pieces, with the run left out put in again. -/
theorem split_at_run {ns : List Nat} {i n : Nat} (h : longestRun ns = some (i, n)) :
    ns = ns.take i ++ List.replicate n 0 ++ ns.drop (i + n) := by
  obtain ⟨-, run⟩ := longestRun_some h
  have zeros := eq_zeros_append (ns.drop i)
  rw [← run, List.drop_drop] at zeros
  rw [List.append_assoc, ← zeros, List.take_append_drop]

/-! ## Reading what is written -/

theorem takeWhile_numeral {n : Nat} (hn : n < 0x10000) (rest : List Char)
    (hr : ∀ c ∈ rest.head?, c = ':') :
    ((Hex.numeral n ++ rest).take 4).takeWhile (fun c => (Hex.value? c).isSome) =
      Hex.numeral n := by
  have short := length_numeral hn
  rw [List.take_append, List.take_of_length_le short,
    List.takeWhile_append_of_pos fun c hc => value?_of_mem_numeral hc]
  cases rest with
  | nil => simp
  | cons c rest =>
    rw [hr c rfl]
    cases 4 - (Hex.numeral n).length with
    | zero => simp
    | succ k =>
      rw [List.take_succ_cons, List.takeWhile_cons_of_neg (by decide), List.append_nil]

theorem numeral_ne_colon {n : Nat} {c : Char} (h : c ∈ Hex.numeral n) : c ≠ ':' := by
  obtain ⟨k, hk, rfl⟩ := mem_numeral h
  have all : ∀ k < 16, Nat.digitChar k ≠ ':' := by decide
  exact all k hk

/-- The last piece. -/
theorem readPieces_last {p : Pieces} (room : p.count < 8) {n : Nat} (hn : n < 0x10000)
    (fuel : Nat) : readPieces (fuel + 1) p (Hex.numeral n) = some (p.add [n]) := by
  have digits := takeWhile_numeral hn [] (fun c hc => by cases hc)
  have left : (Hex.numeral n).drop (Hex.numeral n).length = [] := List.drop_length
  rw [List.append_nil] at digits
  cases written : Hex.numeral n with
  | nil => exact absurd written (numeral_ne_nil n)
  | cons c cs =>
    have first : c ≠ ':' := numeral_ne_colon (n := n) (written ▸ List.mem_cons_self)
    rw [readPieces, if_neg (by omega), if_neg first]
    rw [written] at digits left
    simp only [digits, left]
    rw [← written, numberOf_numeral]

/-- A piece with more to follow it. -/
theorem readPieces_piece {p : Pieces} (room : p.count < 8) {n : Nat} (hn : n < 0x10000)
    (fuel : Nat) {more : List Char} (hm : more ≠ []) :
    readPieces (fuel + 1) p (Hex.numeral n ++ ':' :: more) = readPieces fuel (p.add [n]) more := by
  have digits := takeWhile_numeral hn (':' :: more) (fun c hc => by cases hc; rfl)
  have left : (Hex.numeral n ++ ':' :: more).drop (Hex.numeral n).length = ':' :: more :=
    List.drop_left
  cases written : Hex.numeral n with
  | nil => exact absurd written (numeral_ne_nil n)
  | cons c cs =>
    have first : c ≠ ':' := numeral_ne_colon (n := n) (written ▸ List.mem_cons_self)
    rw [List.cons_append, readPieces, if_neg (by omega), if_neg first]
    rw [written, List.cons_append] at digits left
    simp only [digits, left, if_neg hm]
    rw [← written, numberOf_numeral]

/-- The second colon of the gap. -/
theorem readPieces_gap {before : List Nat} (room : before.length < 8) (fuel : Nat)
    (cs : List Char) :
    readPieces (fuel + 1) ⟨before, none⟩ (':' :: cs) = readPieces fuel ⟨before, some []⟩ cs := by
  have open_count : (⟨before, none⟩ : Pieces).count = before.length := rfl
  rw [readPieces, if_neg (by omega), if_pos rfl]

theorem Pieces.add_nil (p : Pieces) : p.add [] = p := by
  obtain ⟨before, after⟩ := p
  cases after <;> simp [add]

theorem Pieces.add_add (p : Pieces) (ns ms : List Nat) : (p.add ns).add ms = p.add (ns ++ ms) := by
  obtain ⟨before, after⟩ := p
  cases after <;> simp [add]

theorem colons_ne_nil {ns : List Nat} (h : ns ≠ []) : colons ns ≠ [] := by
  cases ns with
  | nil => exact absurd rfl h
  | cons n ns =>
    cases ns with
    | nil => exact numeral_ne_nil n
    | cons m ns => exact List.append_ne_nil_of_left_ne_nil (numeral_ne_nil n) _

/-- Pieces up to the end. -/
theorem readPieces_colons {ns : List Nat} (fits : Fits ns) :
    ∀ {p : Pieces} {fuel : Nat}, p.count + ns.length ≤ 8 → (colons ns).length ≤ fuel →
      readPieces fuel p (colons ns) = some (p.add ns) := by
  induction ns with
  | nil =>
    intro p fuel _ _
    rw [Pieces.add_nil, colons, readPieces]
  | cons n ns ih =>
    intro p fuel room enough
    have hn := fits n List.mem_cons_self
    have digit := List.length_pos_iff.mpr (numeral_ne_nil n)
    rw [List.length_cons] at room
    cases ns with
    | nil =>
      rw [colons] at enough ⊢
      obtain ⟨spare, rfl⟩ : ∃ k, fuel = k + 1 := ⟨fuel - 1, by omega⟩
      exact readPieces_last (by omega) hn spare
    | cons m ns =>
      have rest := List.cons_ne_nil m ns
      rw [colons_cons n rest, List.length_append, List.length_cons] at enough
      obtain ⟨spare, rfl⟩ : ∃ k, fuel = k + 1 := ⟨fuel - 1, by omega⟩
      have total := Pieces.count_add p [n]
      rw [List.length_singleton] at total
      rw [colons_cons n rest, readPieces_piece (by omega) hn spare (colons_ne_nil rest),
        ih (fun k hk => fits k (List.mem_cons_of_mem n hk)) (by omega) (by omega),
        Pieces.add_add, List.singleton_append]

/-- Pieces up to the gap. -/
theorem readPieces_colons_gap {ns : List Nat} (fits : Fits ns) (nonempty : ns ≠ [])
    (rest : List Char) :
    ∀ (before : List Nat) (fuel : Nat), before.length + ns.length < 8 →
      (colons ns ++ [':', ':'] ++ rest).length ≤ fuel →
      ∃ spare, rest.length ≤ spare ∧
        readPieces fuel ⟨before, none⟩ (colons ns ++ [':', ':'] ++ rest) =
          readPieces spare ⟨before ++ ns, some []⟩ rest := by
  induction ns with
  | nil => exact absurd rfl nonempty
  | cons n ns ih =>
    intro before fuel room enough
    have hn := fits n List.mem_cons_self
    have digit := List.length_pos_iff.mpr (numeral_ne_nil n)
    have here : (⟨before, none⟩ : Pieces).count = before.length := rfl
    rw [List.length_cons] at room
    cases ns with
    | nil =>
      have text : colons [n] ++ [':', ':'] ++ rest = Hex.numeral n ++ ':' :: ':' :: rest := by
        simp [colons]
      rw [text] at enough ⊢
      simp only [List.length_append, List.length_cons] at enough
      obtain ⟨spare, rfl⟩ : ∃ k, fuel = k + 1 + 1 := ⟨fuel - 2, by omega⟩
      refine ⟨spare, by omega, ?_⟩
      rw [readPieces_piece (by omega) hn _ (List.cons_ne_nil _ _)]
      exact readPieces_gap (by simp; omega) spare rest
    | cons m ns =>
      have text : colons (n :: m :: ns) ++ [':', ':'] ++ rest =
          Hex.numeral n ++ ':' :: (colons (m :: ns) ++ [':', ':'] ++ rest) := by
        simp [colons]
      rw [text] at enough ⊢
      rw [List.length_append, List.length_cons] at enough
      obtain ⟨spare, rfl⟩ : ∃ k, fuel = k + 1 := ⟨fuel - 1, by omega⟩
      rw [readPieces_piece (by omega) hn spare (by simp)]
      have onwards := ih (fun k hk => fits k (List.mem_cons_of_mem n hk)) (List.cons_ne_nil m ns)
        (before ++ [n]) spare (by simp at room ⊢; omega) (by omega)
      rwa [List.append_assoc before, List.singleton_append] at onwards

/-! ## There and back -/

theorem ofChars?_plain {c d : Char} (hc : c ≠ ':') (cs : List Char) :
    ofChars? (c :: d :: cs) =
      (readPieces (c :: d :: cs).length ⟨[], none⟩ (c :: d :: cs)).bind Pieces.fill := by
  rw [ofChars?]
  · intro h
    cases h
  · intro e h
    cases h
  · intro rest h
    exact hc (List.cons.inj h).1
  · intro rest h
    exact hc (List.cons.inj h).1

/-- A text that begins with a piece and goes on. -/
theorem ofChars?_numeral (n : Nat) {rest : List Char} (hr : rest ≠ []) :
    ofChars? (Hex.numeral n ++ rest) =
      (readPieces (Hex.numeral n ++ rest).length ⟨[], none⟩ (Hex.numeral n ++ rest)).bind
        Pieces.fill := by
  cases written : Hex.numeral n with
  | nil => exact absurd written (numeral_ne_nil n)
  | cons c cs =>
    have first : c ≠ ':' := numeral_ne_colon (n := n) (written ▸ List.mem_cons_self)
    obtain ⟨d, more, text⟩ := List.exists_cons_of_ne_nil
      (List.append_ne_nil_of_right_ne_nil cs hr)
    rw [List.cons_append, text]
    exact ofChars?_plain first more

theorem fits_take {ns : List Nat} (h : Fits ns) (k : Nat) : Fits (ns.take k) :=
  fun n hn => h n (List.mem_of_mem_take hn)

theorem fits_drop {ns : List Nat} (h : Fits ns) (k : Nat) : Fits (ns.drop k) :=
  fun n hn => h n (List.mem_of_mem_drop hn)

/-- Eight pieces with the run left out. -/
theorem ofChars?_gap {before after : List Nat} (hb : Fits before) (ha : Fits after)
    (room : before.length + 1 + after.length ≤ 8) :
    ofChars? (colons before ++ [':', ':'] ++ colons after) =
      some (before ++ List.replicate (8 - before.length - after.length) 0 ++ after) := by
  have open_count : (⟨before, some []⟩ : Pieces).count = before.length + 1 := rfl
  have tail {fuel : Nat} (enough : (colons after).length ≤ fuel) :
      readPieces fuel ⟨before, some []⟩ (colons after) = some ⟨before, some after⟩ :=
    readPieces_colons ha (by omega) enough
  cases before with
  | nil =>
    have text : colons [] ++ [':', ':'] ++ colons after = ':' :: ':' :: colons after := rfl
    rw [text, ofChars?, tail (Nat.le_refl _)]
    rfl
  | cons n before =>
    have text : ∃ rest, rest ≠ [] ∧
        colons (n :: before) ++ [':', ':'] ++ colons after = Hex.numeral n ++ rest := by
      cases before with
      | nil => exact ⟨[':', ':'] ++ colons after, by simp, List.append_assoc _ _ _⟩
      | cons m before =>
        rw [colons_cons n (List.cons_ne_nil m before)]
        exact ⟨':' :: (colons (m :: before) ++ [':', ':'] ++ colons after), by simp, by simp⟩
    obtain ⟨rest, more, text⟩ := text
    obtain ⟨spare, enough, read⟩ := readPieces_colons_gap hb (List.cons_ne_nil n before)
      (colons after) [] (Hex.numeral n ++ rest).length (by simp at room ⊢; omega)
      (Nat.le_of_eq (congrArg List.length text))
    rw [text, ofChars?_numeral n more, ← text]
    rw [← text] at read
    rw [read, List.nil_append, tail enough]
    rfl

/-- **An IPv6 address reads back as its eight pieces.** -/
theorem ofChars?_toChars {ns : List Nat} (fits : Fits ns) (eight : ns.length = 8) :
    ofChars? (toChars ns) = some ns := by
  rw [toChars]
  cases run : longestRun ns with
  | none =>
    cases ns with
    | nil => cases eight
    | cons n ns =>
      have rest : ns ≠ [] := by
        rintro rfl
        cases eight
      have room : (⟨[], none⟩ : Pieces).count + (n :: ns).length ≤ 8 := by
        simp [Pieces.count] at eight ⊢
        omega
      have text := colons_cons n rest
      simp only
      rw [text, ofChars?_numeral n (List.cons_ne_nil _ _), ← text,
        readPieces_colons fits room (Nat.le_refl _)]
      have filled : Pieces.fill ⟨n :: ns, none⟩ = some (n :: ns) := if_pos eight
      exact filled
  | some gap =>
    obtain ⟨i, n⟩ := gap
    obtain ⟨two, -⟩ := longestRun_some run
    have parts := split_at_run run
    have lengths := congrArg List.length parts
    simp only [List.length_append, List.length_replicate] at lengths
    have zeros : 8 - (ns.take i).length - (ns.drop (i + n)).length = n := by omega
    simp only
    rw [ofChars?_gap (fits_take fits i) (fits_drop fits (i + n)) (by omega), zeros, ← parts]

end NamedStores.Ipv6
