/-
A URL without an authority, as reading leaves it, such as the one of a socket file. Blanks may
stand in a path that is not segmented, so the whole is not visible text; but its scheme begins
it and its query ends it, and nothing between them is dropped. So its query reads back.
-/
import NamedStores.Proofs.Url.Form
import NamedStores.Proofs.Url.RoundTrip

namespace NamedStores.Url

/-! ## The parts -/

/-- What stands between the scheme and the query when there is no authority. -/
def barePath (u : Url) : List Char := (if u.guarded then ['/', '.'] else []) ++ u.path

/-- A URL without an authority, as reading leaves it. -/
structure Hostless (u : Url) : Prop where
  scheme : IsScheme u.scheme
  nonweb : u.scheme ∉ webSchemes
  authority : u.authority = none
  plain : ∀ c ∈ u.barePath, 0x20 ≤ c.toNat ∧ c ≠ '?' ∧ c ≠ '#'
  single : ∀ rest, u.barePath ≠ '/' :: '/' :: rest
  query : ∀ q ∈ u.query, Percent.Settled Percent.isQuery q
  fragment : ∀ f ∈ u.fragment, Percent.Settled Percent.isFragment f

theorem le_of_not_isControl {c : Char} (h : Percent.isControl c = false) : 0x20 ≤ c.toNat := by
  simp only [Percent.isControl, Bool.or_eq_false_iff, decide_eq_false_iff_not] at h
  omega

/-- A segmented path holds nothing that ends it. -/
theorem IsPath.plain {path : List Char} (h : IsPath path) {c : Char} (hc : c ∈ path) :
    0x20 ≤ c.toNat ∧ c ≠ '?' ∧ c ≠ '#' := by
  refine ⟨Nat.le_of_lt (visible_path h.settled c hc), ?_, ?_⟩ <;>
    · rintro rfl
      exact absurd (h.settled _ hc) (by decide)

/-- So does a path that stands alone, of which only controls are encoded. -/
theorem encode_isControl_plain {cs : List Char} (question : '?' ∉ cs) (hash : '#' ∉ cs) {c : Char}
    (hc : c ∈ Percent.encode Percent.isControl cs) : 0x20 ≤ c.toNat ∧ c ≠ '?' ∧ c ≠ '#' := by
  refine ⟨le_of_not_isControl (Percent.encode_settled Percent.isControl_admits cs c hc), ?_⟩
  rcases Percent.mem_encode hc with ⟨written, -⟩ | octet
  · exact ⟨fun e => question (e ▸ written), fun e => hash (e ▸ written)⟩
  · have neither := octet.all (p := fun c => c ≠ '?' && c ≠ '#') (by decide) (by decide)
    simpa using neither

theorem Hostless.withQueryPairs {u : Url} (h : u.Hostless) (pairs : List (String × String)) :
    (u.withQueryPairs pairs).Hostless := by
  refine ⟨h.scheme, h.nonweb, h.authority, h.plain, h.single, fun q hq => ?_, h.fragment⟩
  cases hq
  exact Form.toQuery_settled pairs

/-! ## Reading -/

namespace Hostless

variable {scheme : List Char} (isScheme : IsScheme scheme) (nonweb : scheme ∉ webSchemes)
  (query fragment : Option (List Char))

include isScheme nonweb

/-- A segmented path that begins with two slashes is kept from them by a dot segment. -/
theorem segmented {path : List Char} (isPath : IsPath path) :
    Hostless ⟨scheme, none, path.take 2 = ['/', '/'], path,
      query.map (Percent.encode Percent.isQuery),
      fragment.map (Percent.encode Percent.isFragment)⟩ := by
  refine ⟨isScheme, nonweb, rfl, fun c hc => ?_, fun more same => ?_,
    settled_map_encode Percent.isQuery_admits query,
    settled_map_encode Percent.isFragment_admits fragment⟩
  · rcases List.mem_append.mp hc with guarding | inside
    · split at guarding
      · simp only [List.mem_cons, List.not_mem_nil, or_false] at guarding
        rcases guarding with rfl | rfl <;> decide
      · cases guarding
    · exact isPath.plain inside
  · by_cases double : path.take 2 = ['/', '/']
    · simp only [barePath, double, decide_true, if_true] at same
      cases same
    · simp only [barePath, double, decide_false] at same
      have begun : path = '/' :: '/' :: more := same
      exact double (by rw [begun]; rfl)

/-- A path that stands alone does not begin with a slash. -/
theorem alone {cs : List Char} (question : '?' ∉ cs) (hash : '#' ∉ cs)
    (slash : ∀ rest, cs ≠ '/' :: rest) :
    Hostless ⟨scheme, none, false, Percent.encode Percent.isControl cs,
      query.map (Percent.encode Percent.isQuery),
      fragment.map (Percent.encode Percent.isFragment)⟩ := by
  refine ⟨isScheme, nonweb, rfl, fun c hc => encode_isControl_plain question hash hc,
    fun more same => ?_, settled_map_encode Percent.isQuery_admits query,
    settled_map_encode Percent.isFragment_admits fragment⟩
  have begun : Percent.encode Percent.isControl cs = '/' :: '/' :: more := same
  cases cs with
  | nil => cases begun
  | cons c cs =>
    cases control : Percent.isControl c with
    | false =>
      rw [Percent.encode_plain control] at begun
      exact slash cs (by rw [(List.cons.inj begun).1])
    | true =>
      obtain ⟨b, bs, octets⟩ := List.exists_cons_of_ne_nil (Utf8.octets_ne_nil c)
      rw [Percent.encode_special control, octets, List.flatMap_cons] at begun
      exact absurd (List.cons.inj begun).1 (by decide)

end Hostless

theorem ofChars_hostless [HostNames] {cs : List Char} {u : Url} (h : ofChars cs = .ok u)
    (nonweb : u.scheme ∉ webSchemes) (authority : u.authority = none) : u.Hostless := by
  unfold ofChars at h
  cases split : splitScheme? (clean cs) with
  | none => rw [split] at h; cases h
  | some parts =>
    obtain ⟨scheme, after⟩ := parts
    simp only [split] at h
    split at h
    · rename_i web
      cases readWeb_ok h
      exact absurd web nonweb
    · rename_i other
      have isScheme := splitScheme?_isScheme split
      cases hash : Split.cutOff '#' after with
      | mk beforeFragment fragment =>
        cases question : Split.cutOff '?' beforeFragment with
        | mk rest query =>
          obtain ⟨whole, no_question⟩ := Split.cutOff_cases question
          have no_hash : '#' ∉ rest := fun hc => (Split.cutOff_cases hash).2 (by
            rw [whole]
            cases query with
            | none => exact hc
            | some q => exact List.mem_append_left _ hc)
          simp only [hash, question] at h
          split at h
          · cases read : readAuthority _ _ with
            | error flaw => rw [read] at h; cases h
            | ok found =>
              rw [read] at h
              cases h
              cases authority
          · cases h
            exact .segmented isScheme other query fragment (readPath_isPath _)
          · rename_i no_slash
            cases h
            exact .alone isScheme other query fragment no_question no_hash no_slash

/-! ## Reading again -/

theorem hostless_chars_eq {u : Url} (authority : u.authority = none) :
    u.chars = u.scheme ++ ':' :: Split.joined '#' (Split.joined '?' u.barePath u.query)
      u.fragment := by
  rw [chars, authority, barePath]
  cases u.query <;> cases u.fragment <;> simp [Split.joined]

/-- A scheme before and a query behind keep the blanks of a path from being dropped. -/
theorem clean_asked {scheme path cs : List Char} (isScheme : IsScheme scheme)
    (plain : ∀ c ∈ path, 0x20 ≤ c.toNat) (asked : Visible ('?' :: cs)) :
    clean (scheme ++ ':' :: (path ++ '?' :: cs)) = scheme ++ ':' :: (path ++ '?' :: cs) := by
  have begun : Visible (scheme ++ [':']) :=
    isScheme.visible.append (.cons (by decide) fun d hd => absurd hd List.not_mem_nil)
  refine clean_eq (fun c hc => ?_) (fun c hc => ?_) (fun c hc => ?_)
  · rcases List.mem_append.mp hc with front | rest
    · exact Nat.le_of_lt (isScheme.visible c front)
    · rcases List.mem_cons.mp rest with rfl | behind
      · decide
      · rcases List.mem_append.mp behind with inside | last
        · exact plain c inside
        · exact Nat.le_of_lt (asked c last)
  · have front : (scheme ++ ':' :: (path ++ '?' :: cs)).head? = (scheme ++ [':']).head? := by
      cases scheme <;> rfl
    rw [front] at hc
    exact begun c (List.mem_of_mem_head? hc)
  · have back : (scheme ++ ':' :: (path ++ '?' :: cs)).getLast? = ('?' :: cs).getLast? := by
      rw [← List.cons_append, ← List.append_assoc, List.getLast?_append, List.getLast?_cons,
        Option.some_or]
    rw [back] at hc
    exact asked c (List.mem_of_getLast? hc)

/-- **A URL without an authority reads back from its text** when it has a query, but for its
path, which is read anew. -/
theorem Hostless.ofChars_chars [HostNames] {u : Url} (h : u.Hostless) {q : List Char}
    (query : u.query = some q) :
    ∃ v, ofChars u.chars = .ok v ∧ v.scheme = u.scheme ∧ v.authority = none ∧
      v.query = u.query ∧ v.fragment = u.fragment := by
  have text := hostless_chars_eq h.authority
  have hash : '#' ∉ Split.joined '?' u.barePath u.query := by
    rw [query]
    intro hc
    rcases List.mem_append.mp hc with front | rest
    · exact (h.plain _ front).2.2 rfl
    · rcases List.mem_cons.mp rest with other | inside
      · exact absurd other (by decide)
      · exact absurd (h.query q query _ inside) (by decide)
  have tail : ∃ cs, Visible ('?' :: cs) ∧
      u.chars = u.scheme ++ ':' :: (u.barePath ++ '?' :: cs) := by
    have asked : Visible ('?' :: q) := .cons (by decide) (visible_query (h.query q query))
    rw [text, query]
    cases fragment : u.fragment with
    | none => exact ⟨q, asked, rfl⟩
    | some f =>
      have marked : Visible ('#' :: f) :=
        .cons (by decide) (visible_fragment (h.fragment f fragment))
      exact ⟨q ++ '#' :: f, asked.append marked, by simp [Split.joined]⟩
  have cleaned : clean u.chars = u.chars := by
    obtain ⟨cs, visible, written⟩ := tail
    rw [written]
    exact clean_asked h.scheme (fun c hc => (h.plain c hc).1) visible
  have scheme : splitScheme? (clean u.chars) = some (u.scheme, Split.joined '#'
      (Split.joined '?' u.barePath u.query) u.fragment) := by
    rw [cleaned, text, h.scheme.split]
  unfold ofChars
  simp only [scheme, if_neg h.nonweb, Split.cutOff_joined hash,
    Split.cutOff_joined (fun hc => (h.plain _ hc).2.1 rfl), map_encode_settled h.query,
    map_encode_settled h.fragment]
  split
  · rename_i rest same
    exact absurd same (h.single rest)
  · exact ⟨_, rfl, rfl, rfl, rfl, rfl⟩
  · exact ⟨_, rfl, rfl, rfl, rfl, rfl⟩

end NamedStores.Url
