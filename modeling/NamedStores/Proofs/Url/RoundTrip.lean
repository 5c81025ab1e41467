/-
A URL with an authority reads back from its text. Reading leaves each part settled: nothing in
it is left to encode, no part holds the character that ends it, and no blank or control is left
to drop. Only the path is read anew, since its segments are resolved again.
-/
import NamedStores.Proofs.Url.Authority
import NamedStores.Proofs.Url.Parts

namespace NamedStores.Url

/-! ## The whole -/

/-- A URL with an authority, as reading leaves it. -/
structure Settled (u : Url) : Prop where
  scheme : IsScheme u.scheme
  nonweb : u.scheme ∉ webSchemes
  authority : ∃ a, u.authority = some a ∧ a.Settled
  unguarded : u.guarded = false
  path : IsPath u.path
  query : ∀ q ∈ u.query, Percent.Settled Percent.isQuery q
  fragment : ∀ f ∈ u.fragment, Percent.Settled Percent.isFragment f

theorem settled_map_encode {special : Char → Bool} (h : Percent.Admits special)
    (cs : Option (List Char)) :
    ∀ ds ∈ cs.map (Percent.encode special), Percent.Settled special ds := by
  intro ds hds
  obtain ⟨written, -, rfl⟩ := Option.map_eq_some_iff.mp hds
  exact Percent.encode_settled h written

theorem map_encode_settled {special : Char → Bool} {cs : Option (List Char)}
    (h : ∀ ds ∈ cs, Percent.Settled special ds) : cs.map (Percent.encode special) = cs := by
  cases cs with
  | none => rfl
  | some ds => rw [Option.map_some, (h ds rfl).encode_eq]

/-- A text with an authority behind its scheme. -/
theorem ofChars_authority [HostNames] {cs scheme after beforeFragment rest : List Char}
    {query fragment : Option (List Char)} (split : splitScheme? (clean cs) = some (scheme, after))
    (nonweb : scheme ∉ webSchemes)
    (cut : Split.cutOff '#' after = (beforeFragment, fragment))
    (cut' : Split.cutOff '?' beforeFragment = ('/' :: '/' :: rest, query)) :
    ∃ isFollowed, ofChars cs =
      (readAuthority (Split.breakAt (· = '/') rest).1 isFollowed).bind fun (a, more) =>
        .ok ⟨scheme, some a, false, readPath (more ++ (Split.breakAt (· = '/') rest).2),
          query.map (Percent.encode Percent.isQuery),
          fragment.map (Percent.encode Percent.isFragment)⟩ := by
  unfold ofChars
  simp only [split, if_neg nonweb, cut, cut']
  exact ⟨_, rfl⟩

/-- The parts of a text with an authority: the scheme and what follows its colon, what of that
stands before the fragment and before the query, and the authority that is read there. -/
structure Parts where
  scheme : List Char
  after : List Char
  beforeFragment : List Char
  fragment : Option (List Char)
  rest : List Char
  query : Option (List Char)
  isFollowed : Bool
  authority : Authority
  more : List Char

namespace Parts

/-- A text has these parts. -/
structure Of (p : Parts) (cs : List Char) : Prop where
  split : splitScheme? (clean cs) = some (p.scheme, p.after)
  nonweb : p.scheme ∉ webSchemes
  cutFragment : Split.cutOff '#' p.after = (p.beforeFragment, p.fragment)
  cutQuery : Split.cutOff '?' p.beforeFragment = ('/' :: '/' :: p.rest, p.query)
  read : readAuthority (Split.breakAt (· = '/') p.rest).1 p.isFollowed = .ok (p.authority, p.more)

/-- The URL that is made of them. -/
def url (p : Parts) : Url :=
  ⟨p.scheme, some p.authority, false, readPath (p.more ++ (Split.breakAt (· = '/') p.rest).2),
    p.query.map (Percent.encode Percent.isQuery),
    p.fragment.map (Percent.encode Percent.isFragment)⟩

end Parts

/-- Of the URL of a web resource its scheme is kept. -/
theorem readWeb_ok [HostNames] {scheme rest : List Char} {u : Url}
    (h : readWeb scheme rest = .ok u) : u = ⟨scheme, none, false, rest, none, none⟩ := by
  cases checked : checkWeb scheme rest with
  | error flaw => rw [readWeb, checked] at h; cases h
  | ok _ => rw [readWeb, checked] at h; cases h; rfl

/-- What was read when a URL has an authority. -/
theorem ofChars_ok [HostNames] {cs : List Char} {u : Url} (h : ofChars cs = .ok u)
    (authority : u.authority.isSome = true) : ∃ p : Parts, p.Of cs ∧ u = p.url := by
  unfold ofChars at h
  cases split : splitScheme? (clean cs) with
  | none => rw [split] at h; cases h
  | some parts =>
    simp only [split] at h
    split at h
    · cases readWeb_ok h
      cases authority
    · rename_i nonweb
      split at h
      · rename_i rest slashes
        cases read : readAuthority (Split.breakAt (· = '/') rest).1 _ with
        | error flaw => rw [read] at h; cases h
        | ok found =>
          rw [read] at h
          cases h
          exact ⟨⟨_, _, _, _, rest, _, _, found.1, found.2⟩,
            ⟨split, nonweb, rfl, Prod.ext slashes rfl, read⟩, rfl⟩
      · cases h
        cases authority
      · cases h
        cases authority

theorem ofChars_settled [HostNames] {cs : List Char} {u : Url} (h : ofChars cs = .ok u)
    (authority : u.authority.isSome = true) : u.Settled := by
  obtain ⟨p, parts, rfl⟩ := ofChars_ok h authority
  exact ⟨splitScheme?_isScheme parts.split, parts.nonweb,
    ⟨p.authority, rfl, readAuthority_settled parts.read⟩, rfl, readPath_isPath _,
    settled_map_encode Percent.isQuery_admits _, settled_map_encode Percent.isFragment_admits _⟩

/-- An authority stands behind two slashes. -/
theorem slashes_of_authority [HostNames] {cs : List Char} {u : Url} (h : ofChars cs = .ok u)
    (authority : u.authority.isSome = true) :
    ∃ after, splitScheme? (clean cs) = some (u.scheme, '/' :: '/' :: after) := by
  obtain ⟨p, parts, rfl⟩ := ofChars_ok h authority
  rw [parts.split, (Split.cutOff_cases parts.cutFragment).1, (Split.cutOff_cases parts.cutQuery).1]
  cases p.query <;> cases p.fragment <;> exact ⟨_, rfl⟩

theorem ofChars_scheme [HostNames] {cs : List Char} {u : Url} (h : ofChars cs = .ok u) :
    ∃ after, splitScheme? (clean cs) = some (u.scheme, after) := by
  unfold ofChars at h
  cases split : splitScheme? (clean cs) with
  | none => rw [split] at h; cases h
  | some parts =>
    obtain ⟨scheme, after⟩ := parts
    simp only [split] at h
    split at h
    · cases readWeb_ok h
      exact ⟨after, rfl⟩
    · split at h
      · cases read : readAuthority _ _ with
        | error flaw => rw [read] at h; cases h
        | ok found => rw [read] at h; cases h; exact ⟨after, rfl⟩
      · cases h
        exact ⟨after, rfl⟩
      · cases h
        exact ⟨after, rfl⟩

/-! ### Where the authority stands -/

/-- A character at which an authority ends. -/
def endsAuthority (c : Char) : Bool := c = '/' || c = '?' || c = '#'

/-- Blanks that are dropped do not move the end of an authority. -/
theorem breakAt_ended {front back : List Char} (passed : ∀ c ∈ front, endsAuthority c = false)
    (stopped : ∀ c ∈ back.head?, endsAuthority c = true) :
    (Split.breakAt endsAuthority (ended (front ++ back))).1 = ended front ∨
      (Split.breakAt endsAuthority (ended (front ++ back))).1 = unbroken front := by
  cases back with
  | nil =>
    have whole : Split.breakAt endsAuthority (ended front ++ []) = (ended front, []) :=
      Split.breakAt_before (fun c hc => passed c (mem_ended hc)) (fun c hc => by cases hc)
    rw [List.append_nil] at whole ⊢
    rw [whole]
    exact .inl rfl
  | cons c back =>
    have ends : endsAuthority c = true := stopped c rfl
    have visible : 0x20 < c.toNat := by
      simp only [endsAuthority, Bool.or_eq_true, decide_eq_true_eq] at ends
      rcases ends with (rfl | rfl) | rfl <;> decide
    rw [ended_middle visible, Split.breakAt_before (fun d hd => passed d (mem_unbroken hd))
      (fun d hd => by cases hd; exact ends)]
    exact .inr rfl

/-- **The authority stands between `://` and the next slash, question mark or `#`.** -/
theorem authority_located [HostNames] {before after : List Char} {u : Url}
    (h : ofChars (before ++ ':' :: '/' :: '/' :: after) = .ok u) (colon : ':' ∉ before)
    (nonweb : u.scheme ∉ webSchemes) : ∃ a more isFollowed, u.authority = some a ∧
      readAuthority (Split.breakAt endsAuthority (ended after)).1 isFollowed = .ok (a, more) := by
  obtain ⟨rest, split⟩ := ofChars_scheme h
  have behind := split
  rw [clean_around] at behind
  obtain ⟨-, rfl⟩ := splitScheme?_colon (fun hc => colon (mem_begun hc)) behind
  cases broken : Split.breakAt endsAuthority (ended after) with
  | mk front back =>
    obtain ⟨parts, passed, stopped⟩ := Split.breakAt_cases broken
    have free {c : Char} (ends : endsAuthority c = true) (slash : c ≠ '/') :
        c ∉ '/' :: '/' :: front := by
      intro hc
      simp only [List.mem_cons] at hc
      rcases hc with same | same | inside
      · exact slash same
      · exact slash same
      · rw [passed c inside] at ends
        cases ends
    have whole : '/' :: '/' :: ended after = ('/' :: '/' :: front) ++ back := by rw [parts]; rfl
    -- What is left of the text behind the authority begins with a slash, if it is not empty.
    have rest_slash : ∀ c ∈ (Split.cutOff '?' (Split.cutOff '#' back).1).1.head?,
        decide (c = '/') = true := by
      intro c hc
      obtain ⟨later, question⟩ := Split.head?_cutOff hc
      obtain ⟨first, hash⟩ := Split.head?_cutOff later
      have ends := stopped c first
      simpa [endsAuthority, question, hash] using ends
    have cut := Split.cutOff_append (free (c := '#') (by decide) (by decide)) back
    have cut' := Split.cutOff_append (free (c := '?') (by decide) (by decide))
      (Split.cutOff '#' back).1
    rw [← whole] at cut
    simp only [List.cons_append] at cut cut'
    obtain ⟨isFollowed, read⟩ := ofChars_authority split nonweb cut cut'
    have located : Split.breakAt (· = '/') (front ++ (Split.cutOff '?' (Split.cutOff '#' back).1).1) =
        (front, (Split.cutOff '?' (Split.cutOff '#' back).1).1) :=
      Split.breakAt_before (fun c hc => by
        have plain := passed c hc
        simp only [endsAuthority, Bool.or_eq_false_iff, decide_eq_false_iff_not] at plain
        simpa using plain.1.1) rest_slash
    rw [read, located] at h
    cases found : readAuthority front isFollowed with
    | error flaw => rw [found] at h; cases h
    | ok parsed =>
      rw [found] at h
      have authority := congrArg authority (Except.ok.inj h)
      exact ⟨parsed.1, parsed.2, isFollowed, authority.symm, found⟩

/-- Text with `://` behind its scheme has an authority. -/
theorem authority_of_schemeEnd [HostNames] {before after : List Char} {u : Url}
    (h : ofChars (before ++ ':' :: '/' :: '/' :: after) = .ok u) (colon : ':' ∉ before)
    (nonweb : u.scheme ∉ webSchemes) : u.authority.isSome = true := by
  obtain ⟨a, -, -, authority, -⟩ := authority_located h colon nonweb
  rw [authority]
  rfl

theorem chars_eq {u : Url} {a : Authority} (authority : u.authority = some a)
    (unguarded : u.guarded = false) :
    u.chars = u.scheme ++ ':' :: Split.joined '#' (Split.joined '?'
      ('/' :: '/' :: (a.chars ++ u.path)) u.query) u.fragment := by
  rw [chars, authority, unguarded]
  cases u.query <;> cases u.fragment <;> simp [Split.joined]

/-- Behind the scheme stands `://`. -/
theorem Settled.schemeEnd {u : Url} (h : u.Settled) :
    ∃ rest, u.chars = u.scheme ++ ':' :: '/' :: '/' :: rest := by
  obtain ⟨a, authority, -⟩ := h.authority
  rw [chars_eq authority h.unguarded]
  cases u.query <;> cases u.fragment <;> exact ⟨_, rfl⟩

/-- No character of an authority ends it. -/
theorem chars_plain {a : Authority} (h : a.Settled) {c : Char} (hc : c ∈ a.chars) :
    0x20 < c.toNat ∧ c ≠ '/' ∧ c ≠ '?' ∧ c ≠ '#' := by
  have place (hc : c ∈ a.place) : 0x20 < c.toNat ∧ c ≠ '/' ∧ c ≠ '?' ∧ c ≠ '#' := by
    obtain ⟨visible, slash, -, question, hash⟩ := h.place_plain hc
    exact ⟨visible, slash, question, hash⟩
  have info {cs : List Char} (settled : Percent.Settled Percent.isUserInfo cs) (hc : c ∈ cs) :
      0x20 < c.toNat ∧ c ≠ '/' ∧ c ≠ '?' ∧ c ≠ '#' := by
    refine ⟨visible_userInfo settled c hc, ?_, ?_, ?_⟩ <;>
      · rintro rfl
        exact absurd (settled _ hc) (by decide)
  cases named : a.hasUserInfo with
  | false =>
    rw [Authority.chars_eq_place named] at hc
    exact place hc
  | true =>
    rw [Authority.chars_eq_userInfo named] at hc
    rcases List.mem_append.mp hc with front | back
    · cases secret : a.password with
      | none =>
        rw [secret] at front
        exact info h.userName front
      | some p =>
        rw [secret] at front
        rcases List.mem_append.mp front with name | rest
        · exact info h.userName name
        · rcases List.mem_cons.mp rest with rfl | inside
          · decide
          · exact info (h.password p secret).2 inside
    · rcases List.mem_cons.mp back with rfl | inside
      · decide
      · exact place inside

theorem visible_joined {c : Char} {before : List Char} {after : Option (List Char)}
    (hc : 0x20 < c.toNat) (hb : Visible before) (ha : ∀ ds ∈ after, Visible ds) :
    Visible (Split.joined c before after) := by
  cases after with
  | none => exact hb
  | some ds => exact hb.append (.cons hc (ha ds rfl))

theorem Settled.visible {u : Url} (h : u.Settled) : Visible u.chars := by
  obtain ⟨a, authority, settled⟩ := h.authority
  have address : Visible (a.chars ++ u.path) :=
    .append (fun c hc => (chars_plain settled hc).1) (visible_path h.path.settled)
  rw [chars_eq authority h.unguarded]
  refine .append h.scheme.visible (.cons (by decide) (visible_joined (by decide)
    (visible_joined (by decide) (.cons (by decide) (.cons (by decide) address)) ?_) ?_))
  · exact fun q hq => visible_query (h.query q hq)
  · exact fun f hf => visible_fragment (h.fragment f hf)

/-- **A URL with an authority reads back from its text**, but for its path, which is read
anew. -/
theorem ofChars_chars [HostNames] {u : Url} (h : u.Settled) :
    ofChars u.chars = .ok { u with path := readPath u.path } := by
  obtain ⟨a, authority, settled⟩ := h.authority
  have text := chars_eq authority h.unguarded
  have address {c : Char} (hc : c ∈ '/' :: '/' :: (a.chars ++ u.path)) : c ≠ '?' ∧ c ≠ '#' := by
    simp only [List.mem_cons, List.mem_append] at hc
    rcases hc with rfl | rfl | inside | path
    · decide
    · decide
    · exact (chars_plain settled inside).2.2
    · constructor <;>
        · rintro rfl
          exact absurd (h.path.settled _ path) (by decide)
  have hash : '#' ∉ Split.joined '?' ('/' :: '/' :: (a.chars ++ u.path)) u.query := by
    cases query : u.query with
    | none => exact fun hc => (address hc).2 rfl
    | some q =>
      intro hc
      rcases List.mem_append.mp hc with front | rest
      · exact (address front).2 rfl
      · rcases List.mem_cons.mp rest with other | inside
        · exact absurd other (by decide)
        · exact absurd (h.query q query _ inside) (by decide)
  have scheme : splitScheme? (clean u.chars) = some (u.scheme, Split.joined '#'
      (Split.joined '?' ('/' :: '/' :: (a.chars ++ u.path)) u.query) u.fragment) := by
    rw [clean_visible h.visible, text, h.scheme.split]
  have broken : Split.breakAt (· = '/') (a.chars ++ u.path) = (a.chars, u.path) :=
    Split.breakAt_before (fun c hc => by simpa using (chars_plain settled hc).2.1)
      (fun c hc => by simpa using h.path.slash c hc)
  obtain ⟨isFollowed, read⟩ := ofChars_authority scheme h.nonweb (Split.cutOff_joined hash _)
    (Split.cutOff_joined (fun hc => (address hc).1 rfl) _)
  rw [read, broken, readAuthority_chars settled, map_encode_settled h.query,
    map_encode_settled h.fragment]
  obtain ⟨scheme, found, guarded, path, query, fragment⟩ := u
  cases authority
  cases h.unguarded
  rfl

end NamedStores.Url
