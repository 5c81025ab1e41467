/-
What the mask leaves of a password that stands in an address as it was written. The mask ends a
password at the first `@` behind `://` and begins it at the last colon before that; a reader of
the address ends the user information at the last `@` and begins the password at its first
colon. On a password without `@` and colons both find the same text. Of any other the mask
shows what stands up to the last colon before the first `@`, and what stands from there on.
-/
import NamedStores.Proofs.Url.Secret

namespace NamedStores

/-! ## Addresses with a user name and a password -/

/-- The text of an address with credentials in it. -/
def addressOf (scheme user password rest : String) : String :=
  scheme ++ "://" ++ user ++ ":" ++ password ++ "@" ++ rest

/-- The parts of an address with credentials in it. A password may hold `@` and colons; what
follows the user information begins with a host and holds no `@` before its path. -/
structure IsAddress (scheme user password rest : String) : Prop where
  letter : scheme.toList.head?.any Url.isLetter = true
  scheme : scheme.toList.all Url.isSchemeChar = true
  user : ∀ c ∈ user.toList, c ≠ ':' ∧ c ≠ '@' ∧ Url.endsAuthority c = false
  password : ∀ c ∈ password.toList, Url.endsAuthority c = false
  host : rest.toList.head?.any (fun c => c ≠ ':' && !Url.endsAuthority c) = true
  rest : '@' ∉ (Split.breakAt Url.endsAuthority rest.toList).1

theorem toList_addressOf (scheme user password rest : String) :
    (addressOf scheme user password rest).toList = scheme.toList ++ Mask.schemeEnd ++
      (user.toList ++ ':' :: (password.toList ++ '@' :: rest.toList)) := by
  simp [addressOf, Mask.schemeEnd]

namespace Mask

/-! ## What is shown of a password -/

/-- The parts of a password in an address: what is kept before the secret part, which is hidden,
and what is left behind it. The secret part stands between the last colon before the first `@`
and that `@`. -/
structure Parted (password kept secret left : List Char) : Prop where
  parts : password = kept ++ secret ++ left
  covered : Covered secret
  plain : '@' ∉ kept
  colon : kept = [] ∨ ∃ front, kept = front ++ [':']
  behind : left = [] ∨ ∃ more, left = '@' :: more

theorem exists_parted (password : List Char) :
    ∃ kept secret left, Parted password kept secret left := by
  cases broken : Split.breakAt (· = '@') password with
  | mk front left =>
    obtain ⟨parts, passed, stopped⟩ := Split.breakAt_cases broken
    have sign : '@' ∉ front := fun hc => by simpa using passed '@' hc
    have behind : left = [] ∨ ∃ more, left = '@' :: more := by
      cases left with
      | nil => exact .inl rfl
      | cons c more =>
        have found : c = '@' := by simpa using stopped c rfl
        exact .inr ⟨more, by rw [found]⟩
    cases last : Split.last? ':' front with
    | none =>
      have colon := Split.last?_eq_none.mp last
      exact ⟨[], front, left, parts, ⟨sign, colon⟩, List.not_mem_nil, .inl rfl, behind⟩
    | some found =>
      obtain ⟨name, secret⟩ := found
      obtain ⟨rfl, colon⟩ := Split.last?_eq_some.mp last
      simp only [List.mem_append, List.mem_cons, not_or] at sign
      exact ⟨name ++ [':'], secret, left, by simp [parts], ⟨sign.2.2, colon⟩,
        by simpa using sign.1, .inr ⟨name, rfl⟩, behind⟩

namespace Parted

variable {password kept secret left : List Char}

/-- Behind a user name and its colon stands a last colon before the secret part. -/
theorem exists_name (h : Parted password kept secret left) {user : List Char} (hu : '@' ∉ user) :
    ∃ name, '@' ∉ name ∧ user ++ ':' :: kept = name ++ [':'] := by
  have plain := h.plain
  rcases h.colon with rfl | ⟨front, rfl⟩
  · exact ⟨user, hu, rfl⟩
  · refine ⟨user ++ ':' :: front, ?_, by simp⟩
    simp only [List.mem_append, List.mem_cons, not_or] at plain ⊢
    exact ⟨hu, by decide, plain.1⟩

/-- Before what follows the user information stands a first `@` behind the secret part. -/
theorem exists_host (h : Parted password kept secret left) (rest : List Char) :
    ∃ host, left ++ '@' :: rest = '@' :: host := by
  rcases h.behind with rfl | ⟨more, rfl⟩
  · exact ⟨rest, rfl⟩
  · exact ⟨more ++ '@' :: rest, rfl⟩

/-- **Only the secret part of a password is hidden.** -/
theorem hideChars (h : Parted password kept secret left) {scheme user : List Char}
    (hs : ':' ∉ scheme) (hu : '@' ∉ user) (rest : List Char) :
    Mask.hideChars (scheme ++ schemeEnd ++ (user ++ ':' :: (password ++ '@' :: rest))) =
      scheme ++ schemeEnd ++ (user ++ ':' :: (kept ++ stars ++ left ++ '@' :: rest)) := by
  obtain ⟨name, signs, begins⟩ := h.exists_name hu
  obtain ⟨host, ends⟩ := h.exists_host rest
  have whole (middle : List Char) : user ++ ':' :: (kept ++ middle ++ left ++ '@' :: rest) =
      name ++ ':' :: (middle ++ '@' :: host) := by
    calc user ++ ':' :: (kept ++ middle ++ left ++ '@' :: rest)
        = (user ++ ':' :: kept) ++ (middle ++ (left ++ '@' :: rest)) := by simp
      _ = name ++ ':' :: (middle ++ '@' :: host) := by rw [begins, ends]; simp
  rw [h.parts, whole, whole, hideChars_schemeEnd hs signs h.covered.1 h.covered.2 host]
  simp

/-- All of a password is its secret part when neither a colon nor an `@` stands in it. -/
theorem covered_iff (h : Parted password kept secret left) :
    Covered password ↔ kept = [] ∧ left = [] := by
  constructor
  · rintro ⟨signs, colons⟩
    simp only [h.parts, List.mem_append, not_or] at signs colons
    constructor
    · rcases h.colon with empty | ⟨front, rfl⟩
      · exact empty
      · exact absurd (List.mem_append_right front List.mem_cons_self) colons.1.1
    · rcases h.behind with empty | ⟨more, rfl⟩
      · exact empty
      · exact absurd List.mem_cons_self signs.2
  · rintro ⟨rfl, rfl⟩
    rw [h.parts, List.nil_append, List.append_nil]
    exact h.covered

end Parted

end Mask

namespace Url

/-! ## What is read of the same text -/

/-- No `@` stands behind the user information, also when blanks at the end are dropped. -/
theorem at_sign_not_mem_ended {cs : List Char} (h : '@' ∉ (Split.breakAt endsAuthority cs).1) :
    '@' ∉ (Split.breakAt endsAuthority (ended cs)).1 := by
  cases broken : Split.breakAt endsAuthority cs with
  | mk front back =>
    obtain ⟨rfl, passed, stopped⟩ := Split.breakAt_cases broken
    rw [broken] at h
    rcases breakAt_ended passed stopped with whole | cut
    · rw [whole]
      exact fun hc => h (mem_ended hc)
    · rw [cut]
      exact fun hc => h (mem_unbroken hc)

/-- The user information that is read of an address is what was put in, but for line breaks. -/
theorem authority_of_userInfo [HostNames] {scheme user password rest : List Char} {u : Url}
    (h : ofChars (scheme ++ Mask.schemeEnd ++ (user ++ ':' :: (password ++ '@' :: rest))) = .ok u)
    (hs : ':' ∉ scheme) (nonweb : u.scheme ∉ webSchemes)
    (hu : ∀ c ∈ user, c ≠ ':' ∧ c ≠ '@' ∧ endsAuthority c = false)
    (hp : ∀ c ∈ password, endsAuthority c = false)
    (hr : '@' ∉ (Split.breakAt endsAuthority rest).1) :
    ∃ host port, u.authority =
      some (encoded (unbroken user) (some (unbroken password)) host port) := by
  have placed (cs : List Char) : scheme ++ Mask.schemeEnd ++ cs = scheme ++ ':' :: '/' :: '/' :: cs := by
    simp [Mask.schemeEnd]
  rw [placed] at h
  obtain ⟨a, more, isFollowed, authority, read⟩ := authority_located h hs nonweb
  cases broken : Split.breakAt endsAuthority (ended rest) with
  | mk place behind =>
    obtain ⟨parts, passed, stopped⟩ := Split.breakAt_cases broken
    have sign : '@' ∉ place := by
      have unsigned := at_sign_not_mem_ended hr
      rwa [broken] at unsigned
    have whole : ended (user ++ ':' :: (password ++ '@' :: rest)) =
        (unbroken user ++ ':' :: (unbroken password ++ '@' :: place)) ++ behind := by
      rw [ended_middle (by decide), ended_middle (by decide), parts]
      simp
    have plain : ∀ c ∈ unbroken user ++ ':' :: (unbroken password ++ '@' :: place),
        endsAuthority c = false := by
      intro c hc
      simp only [List.mem_append, List.mem_cons] at hc
      rcases hc with named | rfl | inside | rfl | placed
      · exact (hu c (mem_unbroken named)).2.2
      · decide
      · exact hp c (mem_unbroken inside)
      · decide
      · exact passed c placed
    rw [whole, Split.breakAt_before plain stopped] at read
    obtain ⟨info, found, name, secret, -, -, parted, cut, made, -⟩ := readAuthority_ok read
    have last : Split.last? '@' (unbroken user ++ ':' :: (unbroken password ++ '@' :: place)) =
        some (unbroken user ++ ':' :: unbroken password, place) :=
      Split.last?_eq_some.mpr ⟨by simp, sign⟩
    have colon : ':' ∉ unbroken user := fun hc => (hu ':' (mem_unbroken hc)).1 rfl
    rw [last, Option.getD_some, Prod.mk.injEq] at parted
    rw [← parted.1] at cut
    cases cut.symm.trans (Split.cutOff_joined colon (some (unbroken password)))
    exact ⟨a.host, a.port, by rw [authority, ← made]⟩

end Url

namespace Mask

/-- **The mask hides what lies between the last colon before the first `@` and that `@`, of a
password that is read from the first colon to the last `@`.** A reader of the address finds the
password that was put in; the mask hides it whole exactly when neither a colon nor an `@` stands
in it, and shows the rest of it otherwise. -/
theorem password_parted_by_mask [Url.HostNames] {scheme user password rest : String}
    (h : IsAddress scheme user password rest) :
    (∀ u, Url.ofText (addressOf scheme user password rest) = .ok u → u.scheme ∉ Url.webSchemes →
        ∃ host port, u.authority = some (Url.encoded (Url.unbroken user.toList)
          (some (Url.unbroken password.toList)) host port)) ∧
      (∃ kept secret left, Parted password.toList kept secret left ∧
        hide (addressOf scheme user password rest) =
          addressOf scheme user (String.ofList (kept ++ stars ++ left)) rest) ∧
      (hide (addressOf scheme user password rest) = addressOf scheme user "****" rest ↔
        ':' ∉ password.toList ∧ '@' ∉ password.toList) := by
  have colon : ':' ∉ scheme.toList := fun hc =>
    absurd (List.all_eq_true.mp h.scheme ':' hc) (by decide)
  have sign : '@' ∉ user.toList := fun hc => (h.user '@' hc).2.1 rfl
  obtain ⟨kept, secret, left, parted⟩ := exists_parted password.toList
  have hidden : hide (addressOf scheme user password rest) =
      addressOf scheme user (String.ofList (kept ++ stars ++ left)) rest := by
    apply String.toList_inj.mp
    rw [hide, String.toList_ofList, toList_addressOf, toList_addressOf, String.toList_ofList]
    exact parted.hideChars colon sign rest.toList
  refine ⟨fun u read nonweb => ?_, ⟨kept, secret, left, parted, hidden⟩, ?_⟩
  · rw [Url.ofText, toList_addressOf] at read
    exact Url.authority_of_userInfo read colon nonweb h.user h.password h.rest
  · rw [hidden, and_comm, ← Covered, parted.covered_iff]
    constructor
    · intro same
      have sizes := congrArg (fun s : String => s.toList.length) same
      simp only [toList_addressOf, List.length_append, List.length_cons, String.toList_ofList] at sizes
      have four : "****".toList.length = stars.length := rfl
      constructor <;> apply List.eq_nil_of_length_eq_zero <;> omega
    · rintro ⟨rfl, rfl⟩
      rfl

theorem isAddress_root {password : String}
    (h : password.toList.all (fun c => !Url.endsAuthority c) = true) :
    IsAddress "mysql" "root" password "db:3306/x" := by
  have user : "root".toList.all (fun c => c ≠ ':' ∧ c ≠ '@' ∧ Url.endsAuthority c = false) = true := by
    decide
  refine ⟨by decide, by decide, fun c hc => ?_, fun c hc => ?_, by decide, by decide⟩
  · exact of_decide_eq_true (List.all_eq_true.mp user c hc)
  · simpa using List.all_eq_true.mp h c hc

theorem root_password_parted :
    IsAddress "mysql" "root" "p:q" "db:3306/x" ∧
      (∃ u host port, Url.ofText "mysql://root:p:q@db:3306/x" = .ok u ∧
        u.authority = some (Url.encoded "root".toList (some "p:q".toList) host port)) ∧
      hide "mysql://root:p:q@db:3306/x" ≠ "mysql://root:****@db:3306/x" := by
  have address : IsAddress "mysql" "root" "p:q" "db:3306/x" := isAddress_root (by decide)
  obtain ⟨reads, -, shown⟩ := password_parted_by_mask address
  refine ⟨address, ?_, fun same => (shown.mp same).1 (by decide)⟩
  have seen : (Url.ofText "mysql://root:p:q@db:3306/x").toOption.map (·.scheme) =
      some "mysql".toList := by decide +kernel
  cases read : Url.ofText "mysql://root:p:q@db:3306/x" with
  | error flaw =>
    rw [read] at seen
    cases seen
  | ok u =>
    rw [read] at seen
    have scheme : u.scheme = "mysql".toList := Option.some.inj seen
    obtain ⟨host, port, authority⟩ := reads u read (by rw [scheme]; decide)
    exact ⟨u, host, port, rfl, authority⟩

/-- A colon in a password lets the mask show what stands before it. -/
theorem colon_in_password_shown :
    ¬ ∀ scheme user password rest, IsAddress scheme user password rest →
      hide (addressOf scheme user password rest) = addressOf scheme user "****" rest := by
  intro hidden
  have same := hidden "mysql" "root" "p:q" "db:3306/x" (isAddress_root (by decide))
  have shown : hide (addressOf "mysql" "root" "p:q" "db:3306/x") =
      "mysql://root:p:****@db:3306/x" := by decide +kernel
  rw [shown] at same
  exact absurd same (by decide)

end Mask

end NamedStores
