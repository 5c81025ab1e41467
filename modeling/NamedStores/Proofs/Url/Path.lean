/-
A path that was read is read again as it is. A dot segment is one that stands for a dot or two,
in whatever way they are written, and encoding changes nothing of what a segment stands for: so
the segments of a path that was read, of which none was a dot segment, have none to resolve and
nothing to encode.
-/
import NamedStores.Proofs.Url.RoundTrip

namespace NamedStores.Url

/-! ## Dot segments -/

/-- The escape of a dot. -/
theorem eq_of_decode_dot {h l : Char} (high : Percent.IsHexDigit h) (low : Percent.IsHexDigit l)
    (read : Percent.decode ['%', h, l] = [0x2E]) : h = '2' ∧ Case.lowerAscii l = 'e' := by
  obtain ⟨m, hm⟩ := Option.isSome_iff_exists.mp high
  obtain ⟨n, hn⟩ := Option.isSome_iff_exists.mp low
  have first := Ipv6.value?_lt hm
  have second := Ipv6.value?_lt hn
  have value : m * 16 + n = 0x2E := by
    simp only [Percent.decode, hm, hn] at read
    have octet := congrArg UInt8.toNat (List.cons.inj read).1
    rwa [Utf8.toNat_octet (by omega)] at octet
  have two : m = 2 := by omega
  have fourteen : n = 14 := by omega
  subst two fourteen
  have sign : h.toNat = 0x32 := by
    simp only [Hex.value?] at hm
    grind
  have letter : l.toNat = 0x45 ∨ l.toNat = 0x65 := by
    simp only [Hex.value?] at hn
    grind
  refine ⟨Char.toNat_inj.mp sign, ?_⟩
  rcases letter with code | code
  · have capital : l = 'E' := Char.toNat_inj.mp code
    rw [capital]
    decide
  · have small : l = 'e' := Char.toNat_inj.mp code
    rw [small]
    decide

theorem value?_of_lowerAscii {l : Char} (h : Case.lowerAscii l = 'e') : Hex.value? l = some 14 := by
  rcases lowerAscii_cases l with ⟨same, -⟩ | ⟨low, high, -⟩
  · rw [← same, h]
    decide
  · have above : 65 ≤ l.toNat := low
    have below : l.toNat ≤ 90 := high
    have all : ∀ n < 91, 65 ≤ n → Case.lowerAscii (Char.ofNat n) = 'e' →
        Hex.value? (Char.ofNat n) = some 14 := by decide
    have found := all l.toNat (by omega) above
    rw [Char.ofNat_toNat] at found
    exact found h

/-- A dot, or its escape in either case. -/
theorem isDot_cases {cs : List Char} :
    isDot cs = true ↔ cs = ['.'] ∨ ∃ l, cs = ['%', '2', l] ∧ Case.lowerAscii l = 'e' := by
  rw [isDot, Bool.or_eq_true, decide_eq_true_eq, decide_eq_true_eq]
  refine or_congr_right ⟨fun h => ?_, ?_⟩
  · obtain ⟨a, cs, rfl, sign, h⟩ := List.map_eq_cons_iff.mp h
    obtain ⟨b, cs, rfl, two, h⟩ := List.map_eq_cons_iff.mp h
    obtain ⟨l, cs, rfl, letter, h⟩ := List.map_eq_cons_iff.mp h
    cases List.map_eq_nil_iff.mp h
    rw [eq_of_lowerAscii sign (by decide), eq_of_lowerAscii two (by decide)]
    exact ⟨l, rfl, letter⟩
  · rintro ⟨l, rfl, letter⟩
    simp only [List.map_cons, letter]
    decide

theorem decode_dot {cs : List Char} (h : isDot cs = true) (rest : List Char) :
    Percent.decode (cs ++ rest) = 0x2E :: Percent.decode rest := by
  rcases isDot_cases.mp h with rfl | ⟨l, rfl, letter⟩
  · exact Percent.decode_plain (by decide) rest
  · have two : Hex.value? '2' = some 2 := by decide
    simp only [List.cons_append, List.nil_append, Percent.decode, two, value?_of_lowerAscii letter]
    rfl

/-- What begins with a dot begins with one of the ways to write it. -/
theorem eq_dot_append {cs : List Char} {bs : Bytes} (h : Percent.decode cs = 0x2E :: bs) :
    ∃ dot rest, cs = dot ++ rest ∧ isDot dot = true ∧ Percent.decode rest = bs := by
  cases cs with
  | nil => cases h
  | cons c cs =>
    rcases Percent.decode_cases c cs with
      ⟨rfl, a, l, rest, b, rfl, high, low, read⟩ | ⟨-, read⟩
    · have alone := read []
      rw [read] at h
      obtain ⟨rfl, rest_read⟩ := List.cons.inj h
      obtain ⟨rfl, letter⟩ := eq_of_decode_dot high low alone
      exact ⟨['%', '2', l], rest, rfl, isDot_cases.mpr (.inr ⟨l, rfl, letter⟩), rest_read⟩
    · have written : Utf8.octets c ++ Percent.decode cs = Utf8.octets '.' ++ bs := read.symm.trans h
      obtain ⟨rfl, rest_read⟩ := Utf8.octets_append_inj written
      exact ⟨['.'], cs, rfl, rfl, rest_read⟩

/-- **A dot segment is one that stands for a dot.** -/
theorem isDot_iff {cs : List Char} : isDot cs = true ↔ Percent.decode cs = [0x2E] := by
  constructor
  · intro h
    have read := decode_dot h []
    rwa [List.append_nil] at read
  · intro h
    obtain ⟨dot, rest, rfl, isDot, read⟩ := eq_dot_append h
    rw [Percent.decode_eq_nil.mp read, List.append_nil]
    exact isDot

theorem isDots_append {dot : List Char} (h : isDot dot = true) (rest : List Char) :
    isDots (dot ++ rest) = isDot rest := by
  rcases isDot_cases.mp h with rfl | ⟨l, rfl, letter⟩
  · rfl
  · have parted : isDots ('%' :: '2' :: l :: rest) = (isDot ['%', '2', l] && isDot rest) := rfl
    rw [List.cons_append, List.cons_append, List.cons_append, List.nil_append, parted, h,
      Bool.true_and]

/-- And one that stands for two dots. -/
theorem isDots_iff {cs : List Char} : isDots cs = true ↔ Percent.decode cs = [0x2E, 0x2E] := by
  constructor
  · intro h
    have parts : ∃ dot rest, cs = dot ++ rest ∧ isDot dot = true ∧ isDot rest = true := by
      unfold isDots at h
      split at h
      · exact ⟨['.'], _, rfl, rfl, h⟩
      · rename_i a b c rest _
        rw [Bool.and_eq_true] at h
        exact ⟨[a, b, c], rest, rfl, h⟩
      · cases h
    obtain ⟨dot, rest, rfl, first, second⟩ := parts
    rw [decode_dot first, isDot_iff.mp second]
  · intro h
    obtain ⟨dot, rest, rfl, first, read⟩ := eq_dot_append h
    rw [isDots_append first]
    exact isDot_iff.mpr read

/-- So encoding a segment makes no dot segment of it. -/
theorem isDot_encode (s : List Char) : isDot (Percent.encode Percent.isPath s) = isDot s := by
  rw [Bool.eq_iff_iff, isDot_iff, isDot_iff, Percent.decode_encode Percent.isPath_keeps]

theorem isDots_encode (s : List Char) : isDots (Percent.encode Percent.isPath s) = isDots s := by
  rw [Bool.eq_iff_iff, isDots_iff, isDots_iff, Percent.decode_encode Percent.isPath_keeps]

/-! ## Segments -/

/-- A segment that reading leaves as it is. -/
structure Resolved (s : List Char) : Prop where
  settled : Percent.Settled Percent.isPath s
  single : '/' ∉ s
  noDot : isDot s = false
  noDots : isDots s = false

theorem Resolved.nil : Resolved [] :=
  ⟨fun c hc => absurd hc List.not_mem_nil, List.not_mem_nil, by decide, by decide⟩

theorem Resolved.encode {s : List Char} (single : '/' ∉ s) (noDot : ¬ isDot s = true)
    (noDots : ¬ isDots s = true) : Resolved (Percent.encode Percent.isPath s) := by
  refine ⟨Percent.encode_settled Percent.isPath_admits s, fun slash => ?_, ?_, ?_⟩
  · rcases Percent.mem_encode slash with ⟨stood, -⟩ | written
    · exact single stood
    · have other := written.all (p := fun c => c ≠ '/') (by decide) (by decide)
      exact absurd other (by decide)
  · rw [isDot_encode]
    exact Bool.eq_false_iff.mpr noDot
  · rw [isDots_encode]
    exact Bool.eq_false_iff.mpr noDots

/-- Resolving leaves no segment that would be resolved again. -/
theorem resolve_resolved {segments : List (List Char)} (h : ∀ s ∈ segments, '/' ∉ s) :
    ∀ d ∈ resolve [] segments, Resolved d :=
  forall_mem_resolve .nil (fun s hs noDots noDot => .encode (h s hs) noDot noDots)
    fun _ hd => absurd hd List.not_mem_nil

theorem resolve_eq {segments : List (List Char)} (h : ∀ s ∈ segments, Resolved s)
    (dirs : List (List Char)) : resolve dirs segments = dirs.reverse ++ segments := by
  induction segments generalizing dirs with
  | nil => rw [resolve, List.append_nil]
  | cons s more ih =>
    have first := h s List.mem_cons_self
    have entered : resolve dirs (s :: more) = resolve (s :: dirs) more := by
      cases more with
      | nil =>
        simp only [resolve, first.noDots, first.noDot, first.settled.encode_eq, Bool.false_eq_true,
          if_false]
      | cons t more =>
        simp only [resolve, first.noDots, first.noDot, first.settled.encode_eq, Bool.false_eq_true,
          if_false]
    rw [entered, ih (fun t ht => h t (List.mem_cons_of_mem s ht)), List.reverse_cons,
      List.append_assoc, List.singleton_append]

theorem readPath_flatMap {segments : List (List Char)} (h : ∀ s ∈ segments, Resolved s) :
    readPath (segments.flatMap ('/' :: ·)) = segments.flatMap ('/' :: ·) := by
  cases segments with
  | nil => rfl
  | cons s more =>
    have parted : Split.pieces '/' (['/'].intercalate (s :: more)) = s :: more :=
      Split.pieces_intercalate (List.cons_ne_nil s more) fun t ht => (h t ht).single
    rw [Split.flatMap_cons_eq_intercalate, readPath, parted, resolve_eq h, List.reverse_nil,
      List.nil_append, Split.flatMap_cons_eq_intercalate]

/-- **A path that was read is read again as it is.** -/
theorem readPath_readPath (cs : List Char) : readPath (readPath cs) = readPath cs := by
  rcases readPath_cases cs with empty | ⟨rest, written⟩
  · rw [empty]
    rfl
  · rw [written]
    exact readPath_flatMap (resolve_resolved fun _ hs => Split.not_mem_of_mem_pieces hs)

/-- So the path of a URL that was read with an authority stays as it is. -/
theorem readPath_of_read [HostNames] {cs : List Char} {u : Url} (h : ofChars cs = .ok u)
    (authority : u.authority.isSome = true) : readPath u.path = u.path := by
  obtain ⟨p, -, rfl⟩ := ofChars_ok h authority
  exact readPath_readPath _

end NamedStores.Url
