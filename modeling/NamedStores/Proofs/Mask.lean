/-
What the mask does to any text. It looks for a password behind the first `://`, or from the start
on in a text without one, and takes what reaches from the last colon before the first `@` to that
`@`. Nothing else of a text is changed, and what is shown does not tell what stood in the place:
whatever is put there without a colon, an `@` and a slash, the same place is found again. Four
stars are such a text, so that masking twice is masking once.
-/
import NamedStores.Mask
import NamedStores.Proofs.Text.Split

namespace NamedStores.Mask

/-! ## The place for a password -/

/-- A password written so that all of it is hidden. -/
def Covered (secret : List Char) : Prop := '@' ∉ secret ∧ ':' ∉ secret

/-- The two parts of a text between which the search begins: behind the first `://`, or at the
start of a text without one. -/
inductive Opens : List Char → List Char → Prop where
  | start {tail : List Char} : ¬ schemeEnd <:+: tail → Opens [] tail
  | behind {head : List Char} (tail : List Char) : Split.EndsFirst schemeEnd head → Opens head tail

/-- What stands before the place for a password, in it, and from the `@` on behind it. -/
inductive Place : List Char → List Char → List Char → Prop where
  | mk {head name secret host : List Char} :
      Opens head (name ++ ':' :: (secret ++ '@' :: host)) → '@' ∉ name → Covered secret →
      Place (head ++ name ++ [':']) secret ('@' :: host)

/-- The place that is searched for, if there is one. -/
def place? (cs : List Char) : Option (List Char × List Char × List Char) :=
  let (head, tail) := (Split.after? schemeEnd cs).getD ([], cs)
  match Split.first? '@' tail with
  | none => none
  | some (info, host) =>
    match Split.last? ':' info with
    | none => none
    | some (name, secret) => some (head ++ name ++ [':'], secret, '@' :: host)

theorem opens_iff {cs head tail : List Char} :
    (Split.after? schemeEnd cs).getD ([], cs) = (head, tail) ↔ cs = head ++ tail ∧ Opens head tail := by
  have word : schemeEnd ≠ [] := List.cons_ne_nil _ _
  constructor
  · intro h
    cases found : Split.after? schemeEnd cs with
    | none =>
      rw [found] at h
      cases h
      exact ⟨rfl, .start (Split.after?_eq_none.mp found)⟩
    | some parts =>
      rw [found] at h
      cases h
      obtain ⟨whole, first⟩ := (Split.after?_eq_some word).mp found
      exact ⟨whole, .behind tail first⟩
  · rintro ⟨rfl, opens⟩
    cases opens with
    | start nowhere =>
      rw [List.nil_append, Split.after?_eq_none.mpr nowhere]
      rfl
    | behind tail first =>
      rw [(Split.after?_eq_some word).mpr ⟨rfl, first⟩]
      rfl

theorem place?_eq_some {cs before secret after : List Char} :
    place? cs = some (before, secret, after) ↔
      cs = before ++ secret ++ after ∧ Place before secret after := by
  rw [place?]
  constructor
  · -- three searches, each inverted by the law of its reader
    intro h
    cases opening : (Split.after? schemeEnd cs).getD ([], cs) with
    | mk head tail =>
      obtain ⟨whole, opens⟩ := opens_iff.mp opening
      simp only [opening] at h
      split at h
      · cases h
      · rename_i info host sign
        obtain ⟨around, plain⟩ := Split.first?_eq_some.mp sign
        split at h
        · cases h
        · rename_i name found colon
          obtain ⟨parts, covered⟩ := Split.last?_eq_some.mp colon
          cases h
          simp only [parts, List.mem_append, List.mem_cons, not_or] at plain
          rw [around, parts, List.append_assoc, List.cons_append] at opens
          exact ⟨by simp [whole, around, parts], .mk opens plain.1 ⟨plain.2.2, covered⟩⟩
  · rintro ⟨rfl, ⟨opens, plain, covered⟩⟩
    rename_i head name host
    have opening : (Split.after? schemeEnd (head ++ name ++ [':'] ++ secret ++ '@' :: host)).getD
        ([], head ++ name ++ [':'] ++ secret ++ '@' :: host) =
        (head, name ++ ':' :: (secret ++ '@' :: host)) := opens_iff.mpr ⟨by simp, opens⟩
    have sign : Split.first? '@' (name ++ ':' :: (secret ++ '@' :: host)) =
        some (name ++ ':' :: secret, host) :=
      Split.first?_eq_some.mpr ⟨by simp, by simp [plain, covered.1]⟩
    have colon : Split.last? ':' (name ++ ':' :: secret) = some (name, secret) :=
      Split.last?_eq_some.mpr ⟨rfl, covered.2⟩
    simp only [opening, sign, colon]

theorem hideChars_eq (cs : List Char) :
    hideChars cs = ((place? cs).map fun place => place.1 ++ stars ++ place.2.2).getD cs := by
  rw [hideChars, place?]
  cases (Split.after? schemeEnd cs).getD ([], cs) with
  | mk head tail =>
    simp only
    cases Split.first? '@' tail with
    | none => rfl
    | some parts =>
      cases h : Split.last? ':' parts.1 with
      | none => simp only [h]; rfl
      | some found => simp [h]

/-! ## What is shown -/

section

variable {before secret after cs : List Char}

theorem Place.hideChars (h : Place before secret after) :
    hideChars (before ++ secret ++ after) = before ++ stars ++ after := by
  rw [hideChars_eq, place?_eq_some.mpr ⟨rfl, h⟩]
  rfl

theorem hideChars_of_no_place
    (h : ∀ before secret after, cs = before ++ secret ++ after → ¬ Place before secret after) :
    hideChars cs = cs := by
  rw [hideChars_eq]
  cases found : place? cs with
  | none => rfl
  | some place =>
    obtain ⟨parts, stands⟩ := place?_eq_some.mp found
    exact absurd stands (h _ _ _ parts)

/-- A text without `@` is shown as it is. -/
theorem hideChars_of_not_mem (h : '@' ∉ cs) : hideChars cs = cs := by
  refine hideChars_of_no_place fun before secret after parts place => h ?_
  cases place
  rw [parts]
  exact List.mem_append_right _ List.mem_cons_self

/-- No `://` comes about where the place is filled with a text without slashes: none stands around
the place, and none begins at the colon before it or ends at the `@` behind it. -/
theorem Opens.refilled {head name host : List Char}
    (h : Opens head (name ++ ':' :: (secret ++ '@' :: host))) {other : List Char}
    (slash : '/' ∉ other) : Opens head (name ++ ':' :: (other ++ '@' :: host)) := by
  cases h with
  | behind _ first => exact .behind _ first
  | start nowhere =>
    have apart (middle : List Char) : schemeEnd <:+: name ++ ':' :: (middle ++ '@' :: host) ↔
        schemeEnd <:+: name ++ ':' :: middle ∨ schemeEnd <:+: host := by
      rw [← List.cons_append, ← List.append_assoc]
      exact Split.infix_around (by decide)
    have unfilled : schemeEnd <:+: name ++ ':' :: other ↔ schemeEnd <:+: name :=
      @Split.infix_append_left '/' [':', '/'] name (':' :: other) (by simp [slash])
    rw [apart, not_or] at nowhere
    refine .start fun somewhere => ?_
    rcases (apart other).mp somewhere with early | late
    · exact nowhere.1 (List.infix_append_of_infix_left (unfilled.mp early))
    · exact nowhere.2 late

theorem Place.around (h : Place before secret after) :
    (∃ front, before = front ++ [':']) ∧ (∃ host, after = '@' :: host) ∧ Covered secret := by
  obtain ⟨-, -, covered⟩ := h
  exact ⟨⟨_, rfl⟩, ⟨_, rfl⟩, covered⟩

theorem Place.refilled (h : Place before secret after) {other : List Char} (covered : Covered other)
    (slash : '/' ∉ other) : Place before other after := by
  obtain ⟨opens, sign, -⟩ := h
  exact .mk (opens.refilled slash) sign covered

end

/-! ## Texts that agree but for a password -/

/-- Behind `://` all between a colon and the first `@` is hidden. -/
theorem hideChars_schemeEnd {scheme name secret : List Char} (hc : ':' ∉ scheme) (hn : '@' ∉ name)
    (hs : '@' ∉ secret) (colon : ':' ∉ secret) (host : List Char) :
    hideChars (scheme ++ schemeEnd ++ (name ++ ':' :: (secret ++ '@' :: host))) =
      scheme ++ schemeEnd ++ name ++ ':' :: stars ++ '@' :: host := by
  have first : Split.EndsFirst schemeEnd (scheme ++ schemeEnd) := Split.endsFirst_of_not_mem hc _
  have place : Place (scheme ++ schemeEnd ++ name ++ [':']) secret ('@' :: host) :=
    .mk (.behind _ first) hn ⟨hs, colon⟩
  simpa using place.hideChars

/-- So it is from the start on in a text without `://`. -/
theorem hideChars_plain {name secret host : List Char}
    (plain : Split.contains schemeEnd (name ++ ':' :: (secret ++ '@' :: host)) = false)
    (hn : '@' ∉ name) (hs : '@' ∉ secret) (colon : ':' ∉ secret) :
    hideChars (name ++ ':' :: (secret ++ '@' :: host)) = name ++ ':' :: stars ++ '@' :: host := by
  rw [← Bool.not_eq_true, Split.contains_iff] at plain
  have place : Place ([] ++ name ++ [':']) secret ('@' :: host) :=
    .mk (.start plain) hn ⟨hs, colon⟩
  simpa using place.hideChars

/-- Two texts that agree but for a password, which stands behind a colon and before an `@`. -/
inductive Apart : List Char → List Char → Prop where
  | behindScheme {scheme name p q : List Char} (host : List Char) : ':' ∉ scheme → '@' ∉ name →
      Covered p → Covered q → Apart (scheme ++ schemeEnd ++ (name ++ ':' :: (p ++ '@' :: host)))
        (scheme ++ schemeEnd ++ (name ++ ':' :: (q ++ '@' :: host)))
  | plain {name p q host : List Char} :
      Split.contains schemeEnd (name ++ ':' :: (p ++ '@' :: host)) = false →
      Split.contains schemeEnd (name ++ ':' :: (q ++ '@' :: host)) = false → '@' ∉ name →
      Covered p → Covered q →
      Apart (name ++ ':' :: (p ++ '@' :: host)) (name ++ ':' :: (q ++ '@' :: host))

theorem Apart.hideChars {x y : List Char} (h : Apart x y) : hideChars x = hideChars y := by
  cases h with
  | behindScheme host hc hn hp hq =>
    rw [hideChars_schemeEnd hc hn hp.1 hp.2 host, hideChars_schemeEnd hc hn hq.1 hq.2 host]
  | plain left right hn hp hq =>
    rw [hideChars_plain left hn hp.1 hp.2, hideChars_plain right hn hq.1 hq.2]

/-! ## All texts -/

theorem Place.hide {before secret after : String}
    (h : Place before.toList secret.toList after.toList) :
    hide (before ++ secret ++ after) = before ++ "****" ++ after := by
  apply String.toList_inj.mp
  simp only [Mask.hide, String.toList_ofList, String.toList_append, h.hideChars]
  rfl

theorem hide_of_no_place {s : String} (h : ∀ before secret after : String,
    s = before ++ secret ++ after → ¬ Place before.toList secret.toList after.toList) :
    hide s = s := by
  apply String.toList_inj.mp
  rw [hide, String.toList_ofList]
  refine hideChars_of_no_place fun before secret after parts place => ?_
  refine h (.ofList before) (.ofList secret) (.ofList after) (String.toList_inj.mp ?_) ?_
  · simp [parts]
  · simpa using place

/-- **The mask hides one place of a text, if there is one, and nothing else.** What it shows is
the same whatever stands there without a colon, an `@` and a slash, and masked again it stays. -/
theorem hides_one_place (s : String) :
    ((hide s = s ∧ ∀ before secret after : String, s = before ++ secret ++ after →
        ¬ Place before.toList secret.toList after.toList) ∨
      ∃ before secret after : String, s = before ++ secret ++ after ∧
        Place before.toList secret.toList after.toList ∧
        (∃ front, before = front ++ ":") ∧ (∃ host, after = "@" ++ host) ∧
        ':' ∉ secret.toList ∧ '@' ∉ secret.toList ∧
        hide s = before ++ "****" ++ after ∧
        ∀ other : String, ':' ∉ other.toList → '@' ∉ other.toList → '/' ∉ other.toList →
          hide (before ++ other ++ after) = hide s) ∧
      hide (hide s) = hide s := by
  by_cases exists_place : ∃ before secret after : String,
      s = before ++ secret ++ after ∧ Place before.toList secret.toList after.toList
  · obtain ⟨before, secret, after, rfl, place⟩ := exists_place
    have refilled (other : String) (colon : ':' ∉ other.toList) (sign : '@' ∉ other.toList)
        (slash : '/' ∉ other.toList) :
        hide (before ++ other ++ after) = hide (before ++ secret ++ after) := by
      rw [(place.refilled ⟨sign, colon⟩ slash).hide, place.hide]
    obtain ⟨⟨front, colon⟩, ⟨host, sign⟩, covered⟩ := place.around
    refine ⟨.inr ⟨before, secret, after, rfl, place, ⟨.ofList front, ?_⟩, ⟨.ofList host, ?_⟩,
      covered.2, covered.1, place.hide, refilled⟩, ?_⟩
    · exact String.toList_inj.mp (by simp [colon])
    · exact String.toList_inj.mp (by simp [sign])
    · -- four stars are one of the texts that may stand in the place
      rw [place.hide]
      exact (refilled "****" (by decide) (by decide) (by decide)).trans place.hide
  · have none_found : ∀ before secret after : String, s = before ++ secret ++ after →
        ¬ Place before.toList secret.toList after.toList :=
      fun before secret after parts place => exists_place ⟨before, secret, after, parts, place⟩
    have kept := hide_of_no_place none_found
    exact ⟨.inl ⟨kept, none_found⟩, by rw [kept, kept]⟩

/-- Two slashes behind the colon bring about a `://`, and the place is gone. -/
example : hide ":x@h" = ":****@h" ∧ hide "://@h" = "://@h" := by decide

end NamedStores.Mask
