/-
Splitting a text undoes joining it: at a character that does not stand in the part before it, or
after it, the parts come back as they were put together.
-/
import Mathlib.Data.List.TakeWhile
import NamedStores.Text.Split

namespace NamedStores.Split

/-! ## Breaking off a part -/

theorem breakAt_before {stop : Char → Bool} {before rest : List Char}
    (hb : ∀ c ∈ before, stop c = false) (hr : ∀ c ∈ rest.head?, stop c = true) :
    breakAt stop (before ++ rest) = (before, rest) := by
  have taken : ∀ c ∈ before, (!stop c) = true := fun c hc => by rw [hb c hc]; rfl
  rw [breakAt, List.takeWhile_append_of_pos taken, List.dropWhile_append_of_pos taken]
  cases rest with
  | nil => simp
  | cons c rest =>
    have first : (!stop c) = false := by rw [hr c rfl]; rfl
    rw [List.takeWhile_cons_of_neg (by simp [first]), List.dropWhile_cons_of_neg (by simp [first]),
      List.append_nil]

theorem breakAt_cases {stop : Char → Bool} {cs before rest : List Char}
    (h : breakAt stop cs = (before, rest)) :
    cs = before ++ rest ∧ (∀ c ∈ before, stop c = false) ∧ ∀ c ∈ rest.head?, stop c = true := by
  cases h
  refine ⟨List.takeWhile_append_dropWhile.symm, fun c hc => ?_, fun c hc => ?_⟩
  · have passed := List.mem_takeWhile_imp hc
    simpa using passed
  · have stopped := List.head?_dropWhile_not (fun c => !stop c) cs
    rw [Option.mem_def.mp hc] at stopped
    simpa using stopped

/-! ## At the first and at the last -/

theorem first?_eq_some {c : Char} {cs before after : List Char} :
    first? c cs = some (before, after) ↔ cs = before ++ c :: after ∧ c ∉ before := by
  constructor
  · intro h
    cases broken : breakAt (· = c) cs with
    | mk a b =>
      obtain ⟨parts, passed, stopped⟩ := breakAt_cases broken
      rw [first?, broken] at h
      cases b with
      | nil => cases h
      | cons d b =>
        have found : d = c := by simpa using stopped d rfl
        cases h
        exact ⟨found ▸ parts, fun hc => by simpa using passed c hc⟩
  · rintro ⟨rfl, absent⟩
    have broken : breakAt (· = c) (before ++ c :: after) = (before, c :: after) := by
      refine breakAt_before (fun d hd => ?_) (fun d hd => ?_)
      · have other : d ≠ c := fun e => absent (e ▸ hd)
        simp [other]
      · rw [List.head?_cons] at hd
        cases hd
        simp
    rw [first?, broken]

theorem first?_eq_none {c : Char} {cs : List Char} : first? c cs = none ↔ c ∉ cs := by
  constructor
  · intro h hc
    obtain ⟨before, after, parts, absent⟩ := List.eq_append_cons_of_mem hc
    rw [first?_eq_some.mpr ⟨parts, absent⟩] at h
    cases h
  · intro h
    cases found : first? c cs with
    | none => rfl
    | some parts =>
      refine absurd ?_ h
      rw [(first?_eq_some.mp found).1]
      exact List.mem_append_right _ List.mem_cons_self

theorem last?_eq_some {c : Char} {cs before after : List Char} :
    last? c cs = some (before, after) ↔ cs = before ++ c :: after ∧ c ∉ after := by
  have turned (a b : List Char) : (a ++ c :: b).reverse = b.reverse ++ c :: a.reverse := by simp
  rw [last?]
  constructor
  · intro h
    cases found : first? c cs.reverse with
    | none => rw [found] at h; cases h
    | some parts =>
      rw [found] at h
      cases h
      obtain ⟨joined, absent⟩ := first?_eq_some.mp found
      refine ⟨?_, fun hc => absent (List.mem_reverse.mp hc)⟩
      rw [← turned, ← joined, List.reverse_reverse]
  · rintro ⟨rfl, absent⟩
    have found : first? c (before ++ c :: after).reverse = some (after.reverse, before.reverse) :=
      first?_eq_some.mpr ⟨turned before after, fun hc => absent (List.mem_reverse.mp hc)⟩
    rw [found]
    simp only [Option.map_some, List.reverse_reverse]

theorem last?_eq_none {c : Char} {cs : List Char} : last? c cs = none ↔ c ∉ cs := by
  rw [last?, Option.map_eq_none_iff, first?_eq_none, List.mem_reverse]

/-! ## Cutting off -/

/-- A part and, behind a character, what stands after it if there is anything. -/
def joined (c : Char) (before : List Char) : Option (List Char) → List Char
  | none => before
  | some after => before ++ c :: after

theorem cutOff_joined {c : Char} {before : List Char} (h : c ∉ before)
    (after : Option (List Char)) : cutOff c (joined c before after) = (before, after) := by
  cases after with
  | none => rw [joined, cutOff, first?_eq_none.mpr h]
  | some after => rw [joined, cutOff, first?_eq_some.mpr ⟨rfl, h⟩]

theorem cutOff_cases {c : Char} {cs before : List Char} {after : Option (List Char)}
    (h : cutOff c cs = (before, after)) : cs = joined c before after ∧ c ∉ before := by
  rw [cutOff] at h
  cases found : first? c cs with
  | none =>
    rw [found] at h
    cases h
    exact ⟨rfl, first?_eq_none.mp found⟩
  | some parts =>
    rw [found] at h
    cases h
    exact first?_eq_some.mp found

theorem cutOff_cons {c d : Char} (h : d ≠ c) (cs : List Char) :
    cutOff c (d :: cs) = (d :: (cutOff c cs).1, (cutOff c cs).2) := by
  cases cut : cutOff c cs with
  | mk before after =>
    obtain ⟨parts, absent⟩ := cutOff_cases cut
    have longer : d :: cs = joined c (d :: before) after := by
      rw [parts]
      cases after <;> rfl
    rw [longer]
    exact cutOff_joined (fun hc => by
      rcases List.mem_cons.mp hc with same | later
      · exact h same.symm
      · exact absent later) after

theorem joined_append (c : Char) (front before : List Char) (after : Option (List Char)) :
    joined c (front ++ before) after = front ++ joined c before after := by
  cases after with
  | none => rfl
  | some after => exact List.append_assoc front before (c :: after)

theorem head?_joined {c d : Char} {before : List Char} {after : Option (List Char)}
    (h : d ∈ (joined c before after).head?) : d ∈ before.head? ∨ d = c := by
  cases after with
  | none => exact .inl h
  | some after =>
    cases before with
    | nil => exact .inr (Option.some.inj h).symm
    | cons e before => exact .inl h

theorem mem_cutOff {c d : Char} {cs : List Char} (h : d ∈ (cutOff c cs).1) : d ∈ cs := by
  cases cut : cutOff c cs with
  | mk before after =>
    rw [cut] at h
    rw [(cutOff_cases cut).1]
    cases after with
    | none => exact h
    | some after => exact List.mem_append_left _ h

/-- What is cut off begins as the whole does, if there is anything. -/
theorem head?_cutOff {c d : Char} {cs : List Char} (h : d ∈ (cutOff c cs).1.head?) :
    d ∈ cs.head? ∧ d ≠ c := by
  cases cut : cutOff c cs with
  | mk before after =>
    obtain ⟨parts, absent⟩ := cutOff_cases cut
    rw [cut] at h
    cases before with
    | nil => cases h
    | cons e before =>
      cases h
      refine ⟨?_, fun same => absent (same ▸ List.mem_cons_self)⟩
      rw [parts]
      cases after <;> rfl

/-- A part without such a character is passed over. -/
theorem cutOff_append {c : Char} {before : List Char} (h : c ∉ before) (cs : List Char) :
    cutOff c (before ++ cs) = (before ++ (cutOff c cs).1, (cutOff c cs).2) := by
  induction before with
  | nil => rfl
  | cons d before ih =>
    obtain ⟨first, later⟩ := not_or.mp (mt List.mem_cons.mpr h)
    rw [List.cons_append, cutOff_cons (Ne.symm first), ih later]
    rfl

/-! ## Into pieces -/

theorem not_mem_of_mem_pieces {c : Char} {cs piece : List Char} (h : piece ∈ pieces c cs) :
    c ∉ piece := by
  induction cs generalizing piece with
  | nil =>
    rw [pieces, List.mem_singleton] at h
    rw [h]
    exact List.not_mem_nil
  | cons d cs ih =>
    rw [pieces] at h
    split at h
    · rcases List.mem_cons.mp h with rfl | later
      · exact List.not_mem_nil
      · exact ih later
    · rename_i other
      split at h
      · rename_i s more parts
        rcases List.mem_cons.mp h with rfl | later
        · intro found
          rcases List.mem_cons.mp found with same | inside
          · exact other same.symm
          · exact ih (parts ▸ List.mem_cons_self) inside
        · exact ih (parts ▸ List.mem_cons_of_mem s later)
      · rw [List.mem_singleton] at h
        rw [h, List.mem_singleton]
        exact fun same => other same.symm

theorem pieces_single {c : Char} {cs : List Char} (h : c ∉ cs) : pieces c cs = [cs] := by
  induction cs with
  | nil => rfl
  | cons d cs ih =>
    obtain ⟨first, rest⟩ := not_or.mp (mt List.mem_cons.mpr h)
    rw [pieces, if_neg (Ne.symm first), ih rest]

theorem pieces_cons {c : Char} {piece : List Char} (h : c ∉ piece) (cs : List Char) :
    pieces c (piece ++ c :: cs) = piece :: pieces c cs := by
  induction piece with
  | nil => rw [List.nil_append, pieces, if_pos rfl]
  | cons d piece ih =>
    obtain ⟨first, rest⟩ := not_or.mp (mt List.mem_cons.mpr h)
    rw [List.cons_append, pieces, if_neg (Ne.symm first), ih rest]

theorem pieces_intercalate {c : Char} {parts : List (List Char)} (nonempty : parts ≠ [])
    (h : ∀ part ∈ parts, c ∉ part) : pieces c ([c].intercalate parts) = parts := by
  induction parts with
  | nil => exact absurd rfl nonempty
  | cons part parts ih =>
    have first := h part List.mem_cons_self
    cases parts with
    | nil =>
      rw [List.intercalate_singleton, pieces_single first]
    | cons next parts =>
      have rest := ih (List.cons_ne_nil _ _) fun p hp => h p (List.mem_cons_of_mem part hp)
      rw [List.intercalate_cons_cons, List.append_assoc, List.singleton_append,
        pieces_cons first, rest]

/-- Parts with such a character before each of them. -/
theorem flatMap_cons_eq_intercalate (c : Char) (part : List Char) (parts : List (List Char)) :
    (part :: parts).flatMap (c :: ·) = c :: [c].intercalate (part :: parts) := by
  induction parts generalizing part with
  | nil => rw [List.flatMap_singleton, List.intercalate_singleton]
  | cons next parts ih =>
    rw [List.flatMap_cons, ih next, List.intercalate_cons_cons, List.cons_append, List.append_assoc,
      List.singleton_append]

/-! ## Finding a word -/

theorem contains_iff {word cs : List Char} : contains word cs = true ↔ word <:+: cs := by
  rw [contains]
  induction cs with
  | nil =>
    rw [after?, List.infix_nil]
    split
    · rename_i empty
      exact iff_of_true rfl empty
    · rename_i nonempty
      exact iff_of_false (by simp) nonempty
  | cons c cs ih =>
    rw [after?, List.infix_cons_iff, ← List.isPrefixOf_iff_prefix]
    split
    · rename_i begun
      exact iff_of_true rfl (.inl begun)
    · rename_i elsewhere
      rw [Option.isSome_map, ih, or_iff_right elsewhere]

theorem after?_eq_none {word cs : List Char} : after? word cs = none ↔ ¬ word <:+: cs := by
  rw [← contains_iff, contains, Bool.not_eq_true, Option.isSome_eq_false_iff, Option.isNone_iff_eq_none]

theorem after?_parts {word cs before rest : List Char} (h : after? word cs = some (before, rest)) :
    cs = before ++ rest := by
  induction cs generalizing before with
  | nil =>
    rw [after?] at h
    split at h
    · cases h
      rfl
    · cases h
  | cons c cs ih =>
    rw [after?] at h
    split at h
    · rename_i begun
      cases h
      obtain ⟨more, whole⟩ := List.isPrefixOf_iff_prefix.mp begun
      rw [← whole, List.drop_left]
    · obtain ⟨⟨a, b⟩, found, same⟩ := Option.map_eq_some_iff.mp h
      cases same
      rw [ih found]
      rfl

/-- A text ends with a word that stands nowhere before in it. -/
def EndsFirst (word before : List Char) : Prop := word <:+ before ∧ ¬ word <:+: before.dropLast

/-- No text ends with a first place of a word and goes on to another. -/
theorem EndsFirst.not_shorter {word a b : List Char} (ha : EndsFirst word a) (hb : EndsFirst word b)
    (begun : a <+: b) : a = b := by
  refine begun.eq_of_length_le (Nat.le_of_not_lt fun shorter => hb.2 ?_)
  have inside : a <+: b.dropLast := by
    refine List.prefix_of_prefix_length_le begun (List.dropLast_prefix b) ?_
    rw [List.length_dropLast]
    omega
  exact ha.1.isInfix.trans inside.isInfix

theorem endsFirst_self {word : List Char} (nonempty : word ≠ []) : EndsFirst word word := by
  refine ⟨List.suffix_rfl, fun again => ?_⟩
  have size := again.length_le
  have longer := List.length_pos_iff.mpr nonempty
  rw [List.length_dropLast] at size
  omega

theorem after?_endsFirst {word : List Char} (nonempty : word ≠ []) {cs before rest : List Char}
    (h : after? word cs = some (before, rest)) : EndsFirst word before := by
  induction cs generalizing before with
  | nil =>
    rw [after?, if_neg nonempty] at h
    cases h
  | cons c cs ih =>
    rw [after?] at h
    split at h
    · cases h
      exact endsFirst_self nonempty
    · rename_i elsewhere
      rw [List.isPrefixOf_iff_prefix] at elsewhere
      obtain ⟨⟨b, r⟩, found, same⟩ := Option.map_eq_some_iff.mp h
      cases same
      obtain ⟨stands, first⟩ := ih found
      have some_left : b ≠ [] := fun none_left => nonempty (by simpa [none_left] using stands)
      refine ⟨stands.trans (List.suffix_cons c b), fun again => ?_⟩
      rw [List.dropLast_cons_of_ne_nil some_left] at again
      rcases List.infix_cons_iff.mp again with start | later
      · rw [after?_parts found] at elsewhere
        exact elsewhere (start.trans ((List.prefix_cons_inj c).mpr
          ((List.dropLast_prefix b).trans (List.prefix_append b rest))))
      · exact first later

/-- A text is split where a word stands first in it. -/
theorem after?_eq_some {word : List Char} (nonempty : word ≠ []) {cs before rest : List Char} :
    after? word cs = some (before, rest) ↔ cs = before ++ rest ∧ EndsFirst word before := by
  refine ⟨fun h => ⟨after?_parts h, after?_endsFirst nonempty h⟩, ?_⟩
  rintro ⟨rfl, ends⟩
  cases found : after? word (before ++ rest) with
  | none =>
    refine absurd ?_ (after?_eq_none.mp found)
    exact ends.1.isInfix.trans (List.prefix_append before rest).isInfix
  | some parts =>
    obtain ⟨front, back⟩ := parts
    have whole := after?_parts found
    have first := after?_endsFirst nonempty found
    have same : front = before := by
      rcases List.prefix_or_prefix_of_prefix ⟨back, whole.symm⟩ (List.prefix_append before rest)
        with left | right
      · exact first.not_shorter ends left
      · exact (ends.not_shorter first right).symm
    rw [same] at whole ⊢
    rw [List.append_cancel_left whole]

/-- A word stands first where its first character does. -/
theorem endsFirst_of_not_mem {c : Char} {before : List Char} (h : c ∉ before) (word : List Char) :
    EndsFirst (c :: word) (before ++ c :: word) := by
  refine ⟨List.suffix_append before (c :: word), fun again => ?_⟩
  rw [List.dropLast_append_cons] at again
  rcases List.infix_append_iff_ne_nil.mp again with early | late | ⟨front, _, some_left, -, whole, reach, -⟩
  · exact h (early.subset List.mem_cons_self)
  · exact (endsFirst_self (List.cons_ne_nil c word)).2 late
  · cases front with
    | nil => exact some_left rfl
    | cons d front =>
      rw [(List.cons.inj whole).1] at h
      exact h (reach.subset List.mem_cons_self)

/-! ## A word in a text put together -/

/-- A word is not broken by a character that it does not have. -/
theorem infix_around {c : Char} {word a b : List Char} (absent : c ∉ word) :
    word <:+: a ++ c :: b ↔ word <:+: a ∨ word <:+: b := by
  refine ⟨fun h => ?_, fun h => h.elim List.infix_append_of_infix_left fun inside =>
    List.infix_append_of_infix_right (List.infix_cons inside)⟩
  have not_begun {part : List Char} (nonempty : part ≠ []) (inside : part ⊆ word) :
      ¬ part <+: c :: b := fun begun => by
    cases part with
    | nil => exact nonempty rfl
    | cons d part =>
      rw [(List.cons_prefix_cons.mp begun).1] at inside
      exact absent (inside List.mem_cons_self)
  rcases List.infix_append_iff_ne_nil.mp h with left | right | ⟨front, back, -, nonempty, rfl, -, begun⟩
  · exact .inl left
  · rcases List.infix_cons_iff.mp right with begun | later
    · by_cases empty : word = []
      · exact .inl (empty ▸ List.nil_infix)
      · exact absurd begun (not_begun empty (List.Subset.refl word))
    · exact .inr later
  · exact absurd begun (not_begun nonempty (List.subset_append_right front back))

/-- A word does not reach into a part without its last character. -/
theorem infix_append_left {c : Char} {word a b : List Char} (absent : c ∉ b) :
    word ++ [c] <:+: a ++ b ↔ word ++ [c] <:+: a := by
  refine ⟨fun h => ?_, List.infix_append_of_infix_left⟩
  rcases List.infix_append_iff_ne_nil.mp h with left | right | ⟨front, back, -, nonempty, whole, -, begun⟩
  · exact left
  · exact absurd (right.subset (List.mem_append_right word List.mem_cons_self)) absent
  · have last : c ∈ back := by
      rcases List.suffix_concat_iff.mp ⟨front, whole.symm⟩ with empty | ⟨more, rfl, -⟩
      · exact absurd empty nonempty
      · exact List.mem_append_right more List.mem_cons_self
    exact absurd (begun.subset last) absent

end NamedStores.Split
