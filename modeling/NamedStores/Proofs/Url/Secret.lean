/-
The password of a URL, hidden. The text of a URL with an authority has its first `://` behind the
scheme, and of the characters between which a password is looked for none stands unencoded in
a user name or a password. So the mask finds the whole password and nothing but it, and two URLs
that agree but for their passwords look the same.
-/
import NamedStores.Proofs.Mask
import NamedStores.Proofs.Url.UserInfo

namespace NamedStores

namespace Url

/-! ## Two URLs -/

/-- Two URLs agree but for their passwords, which both have. -/
def ApartInPassword (u v : Url) : Prop :=
  ∃ (a : Authority) (p q : List Char), u.authority = some { a with password := some p } ∧
    v = { u with authority := some { a with password := some q } }

/-- What stands in a text behind the authority. -/
def behind (u : Url) : List Char :=
  Split.joined '#' (Split.joined '?' u.path u.query) u.fragment

theorem chars_eq_behind {u : Url} {a : Authority} (authority : u.authority = some a)
    (unguarded : u.guarded = false) :
    u.chars = u.scheme ++ Mask.schemeEnd ++ (a.chars ++ u.behind) := by
  rw [chars_eq authority unguarded, behind, Mask.schemeEnd]
  cases u.query <;> cases u.fragment <;> simp [Split.joined]

/-- The text of a settled URL with its password hidden. -/
theorem Settled.hideChars {u : Url} {a : Authority} {p : List Char} (h : u.Settled)
    (authority : u.authority = some a) (secret : a.password = some p) :
    Mask.hideChars u.chars = u.scheme ++ Mask.schemeEnd ++ a.userName ++ ':' :: Mask.stars ++
      '@' :: (a.place ++ u.behind) := by
  have settled := h.of_authority authority
  have info : a.hasUserInfo = true := by simp [Authority.hasUserInfo, secret]
  have text : a.chars ++ u.behind =
      a.userName ++ ':' :: (p ++ '@' :: (a.place ++ u.behind)) := by
    simp [Authority.chars_eq_userInfo info, secret, Split.joined]
  have colon : ':' ∉ u.scheme := fun inside =>
    absurd (List.all_eq_true.mp h.scheme.chars ':' inside) (by decide)
  have plain (c : Char) (special : Percent.isUserInfo c = true) {cs : List Char}
      (written : Percent.Settled Percent.isUserInfo cs) : c ∉ cs := fun inside => by
    rw [written c inside] at special
    cases special
  have password := (settled.password p secret).2
  rw [chars_eq_behind authority h.unguarded, text]
  exact Mask.hideChars_schemeEnd colon (plain '@' (by decide) settled.userName)
    (plain '@' (by decide) password) (plain ':' (by decide) password) _

/-- **URLs that agree but for their passwords look the same.** -/
theorem ApartInPassword.hide {u v : Url} (h : ApartInPassword u v) (hu : u.Settled)
    (hv : v.Settled) : Mask.hide u.text = Mask.hide v.text := by
  obtain ⟨a, p, q, authority, rfl⟩ := h
  have left := hu.hideChars authority rfl
  have right := hv.hideChars rfl rfl
  simp only [Mask.hide, text, String.toList_ofList, left, right]
  rfl

/-- Pairs put into the query bring no `@`. -/
theorem at_sign_not_mem_withQueryPairs {u : Url} (h : '@' ∉ u.chars)
    (pairs : List (String × String)) : '@' ∉ (u.withQueryPairs pairs).chars := by
  have query : '@' ∉ Form.toQuery pairs := fun inside => by
    rcases Form.mem_toQuery inside with written | other | other
    · cases written
    · cases other
    · cases other
  simp only [chars, withQueryPairs, List.mem_append, List.mem_cons, not_or] at h ⊢
  exact ⟨⟨h.1.1, by decide, query⟩, h.2⟩

/-! ## Credentials put in -/

section

variable {u v : Url}

theorem withPassword?_of_host {a : Authority} (host : u.host? = some a) {secret : String}
    (given : secret ≠ "") : u.withPassword? secret =
      some { u with authority := some { a with
        password := some (Percent.encode Percent.isUserInfo secret.toList) } } := by
  have written : (Percent.encode Percent.isUserInfo secret.toList).isEmpty = false := by
    rw [List.isEmpty_eq_false_iff, ne_eq, Percent.encode_eq_nil]
    simpa using given
  simp [withPassword?, host, written]

/-- Whether a password can be put in does not depend on it. -/
theorem withCredentials?_apart (u : Url) (userName : Option String) {p q : String} (hp : p ≠ "")
    (hq : q ≠ "") :
    (u.withCredentials? userName (some p) = none ∧ u.withCredentials? userName (some q) = none) ∨
      ∃ v w, u.withCredentials? userName (some p) = some v ∧
        u.withCredentials? userName (some q) = some w ∧ ApartInPassword v w := by
  have unfolded (secret : String) : u.withCredentials? userName (some secret) =
    (u.withGivenName? userName).bind (·.withPassword? secret) := rfl
  simp only [unfolded]
  cases u.withGivenName? userName with
  | none => exact .inl ⟨rfl, rfl⟩
  | some named =>
    simp only [Option.bind_some]
    cases host : named.host? with
    | none => simp [withPassword?, host]
    | some a =>
      refine .inr ⟨_, _, withPassword?_of_host host hp, withPassword?_of_host host hq, ?_⟩
      exact ⟨a, _, _, rfl, rfl⟩

namespace ApartInPassword

variable {u' v' : Url}

theorem withGivenName? {userName : Option String} (h : ApartInPassword u v)
    (left : u.withGivenName? userName = some u') (right : v.withGivenName? userName = some v') :
    ApartInPassword u' v' := by
  cases userName with
  | none =>
    cases left
    cases right
    exact h
  | some name =>
    obtain ⟨a, p, q, authority, rfl⟩ := h
    obtain ⟨b, host, rfl⟩ := Option.map_eq_some_iff.mp left
    obtain ⟨c, host', rfl⟩ := Option.map_eq_some_iff.mp right
    cases authority.symm.trans (host?_eq_some.mp host).1
    cases (host?_eq_some.mp host').1
    exact ⟨⟨Percent.encode Percent.isUserInfo name.toList, none, a.host, a.port⟩, p, q, rfl, rfl⟩

/-- A password that is put in takes the place of both. -/
theorem withGivenPassword? {password : Option String} (h : ApartInPassword u v)
    (left : u.withGivenPassword? password = some u')
    (right : v.withGivenPassword? password = some v') : u' = v' ∨ ApartInPassword u' v' := by
  cases password with
  | none =>
    cases left
    cases right
    exact .inr h
  | some secret =>
    obtain ⟨a, p, q, authority, rfl⟩ := h
    obtain ⟨b, host, rfl⟩ := Option.map_eq_some_iff.mp left
    obtain ⟨c, host', rfl⟩ := Option.map_eq_some_iff.mp right
    cases authority.symm.trans (host?_eq_some.mp host).1
    cases (host?_eq_some.mp host').1
    exact .inl rfl

theorem withCredentials? {userName password : Option String} (h : ApartInPassword u v)
    (left : u.withCredentials? userName password = some u')
    (right : v.withCredentials? userName password = some v') :
    u' = v' ∨ ApartInPassword u' v' := by
  obtain ⟨named, first, rest⟩ := Option.bind_eq_some_iff.mp left
  obtain ⟨named', first', rest'⟩ := Option.bind_eq_some_iff.mp right
  exact (h.withGivenName? first first').withGivenPassword? rest rest'

end ApartInPassword

end

end Url

end NamedStores
