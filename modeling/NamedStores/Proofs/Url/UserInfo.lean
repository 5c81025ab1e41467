/-
User information read back. A user name or password is encoded on the way into a URL, all but
its `%`, and a driver undoes the encoding: so it reads what the text given decodes to, which is
that text unless an escape stands in it.
-/
import NamedStores.Proofs.Url.Change

namespace NamedStores

namespace Url

/-! ## What a driver reads -/

/-- The text that a part of a URL writes, if its octets are UTF-8. -/
def plainText? (cs : List Char) : Option String :=
  Utf8.toString? (Percent.decode cs)

/-- The user name that a driver logs in with. -/
def plainUserName? (u : Url) : Option String :=
  u.authority.bind fun a => plainText? a.userName

/-- The password that a driver logs in with, empty if there is none. -/
def plainPassword? (u : Url) : Option String :=
  u.authority.bind fun a => plainText? (a.password.getD [])

/-- A part of the URL that a text is. -/
def readIn [HostNames] {α : Type} (part : Url → Option α) (text : String) : Option α :=
  (ofText text).toOption.bind part

theorem plainText?_encode (cs : List Char) :
    plainText? (Percent.encode Percent.isUserInfo cs) = plainText? cs := by
  rw [plainText?, Percent.decode_encode Percent.isUserInfo_keeps, plainText?]

theorem plainText?_eq_self {s : String} :
    plainText? s.toList = some s ↔ ¬ Percent.Escaped s.toList := by
  rw [plainText?, Utf8.toString?_eq_some]
  exact Percent.decode_eq_iff

/-- What a driver reads is what the text given decodes to. -/
structure ReadsAs (given : String) (read : Option String) : Prop where
  decoded : read = plainText? given.toList
  unchanged : read = some given ↔ ¬ Percent.Escaped given.toList

theorem readsAs_plainText? (given : String) : ReadsAs given (plainText? given.toList) :=
  ⟨rfl, plainText?_eq_self⟩

/-! ## Putting credentials in -/

section

variable {u v : Url}

theorem withUserName?_eq_some {name : String} (put : u.withUserName? name = some v) :
    ∃ a b, u.authority = some a ∧ v = { u with authority := some b } ∧
      b.userName = Percent.encode Percent.isUserInfo name.toList := by
  obtain ⟨a, host, rfl⟩ := Option.map_eq_some_iff.mp put
  exact ⟨a, _, (host?_eq_some.mp host).1, rfl, rfl⟩

theorem withPassword?_eq_some {secret : String} (put : u.withPassword? secret = some v) :
    ∃ a b, u.authority = some a ∧ v = { u with authority := some b } ∧ b.userName = a.userName ∧
      b.password.getD [] = Percent.encode Percent.isUserInfo secret.toList := by
  obtain ⟨a, host, rfl⟩ := Option.map_eq_some_iff.mp put
  refine ⟨a, _, (host?_eq_some.mp host).1, rfl, rfl, ?_⟩
  dsimp only
  split
  · rename_i empty
    exact (List.isEmpty_iff.mp empty).symm
  · rfl

theorem plainUserName?_withUserName? {name : String} (put : u.withUserName? name = some v) :
    v.plainUserName? = plainText? name.toList := by
  obtain ⟨a, b, -, rfl, written⟩ := withUserName?_eq_some put
  rw [← plainText?_encode, ← written]
  rfl

theorem plainUserName?_withPassword? {secret : String} (put : u.withPassword? secret = some v) :
    v.plainUserName? = u.plainUserName? := by
  obtain ⟨a, b, authority, rfl, kept, -⟩ := withPassword?_eq_some put
  rw [plainUserName?, plainUserName?, authority, Option.bind_some, Option.bind_some, kept]

theorem plainPassword?_withPassword? {secret : String} (put : u.withPassword? secret = some v) :
    v.plainPassword? = plainText? secret.toList := by
  obtain ⟨a, b, -, rfl, -, written⟩ := withPassword?_eq_some put
  rw [← plainText?_encode, ← written]
  rfl

theorem plainPassword?_withUserName? {name : String} (put : u.withUserName? name = some v) :
    v.plainPassword? = u.plainPassword? := by
  obtain ⟨a, host, rfl⟩ := Option.map_eq_some_iff.mp put
  have authority := (host?_eq_some.mp host).1
  rw [plainPassword?, plainPassword?, authority]
  rfl

/-- A URL with a user name put in, if one is given. -/
def withGivenName? (u : Url) (userName : Option String) : Option Url :=
  userName.elim (some u) u.withUserName?

/-- A URL with a password put in, if one is given. -/
def withGivenPassword? (u : Url) (password : Option String) : Option Url :=
  password.elim (some u) u.withPassword?

/-- A URL with the credentials put in that are given. -/
def withCredentials? (u : Url) (userName password : Option String) : Option Url :=
  (u.withGivenName? userName).bind (·.withGivenPassword? password)

theorem withCredentials?_scheme {userName password : Option String}
    (put : u.withCredentials? userName password = some v) : v.scheme = u.scheme := by
  obtain ⟨w, named, kept⟩ := Option.bind_eq_some_iff.mp put
  have first : w.scheme = u.scheme := by
    cases userName with
    | none => cases named; rfl
    | some name =>
      obtain ⟨a, b, -, rfl, -⟩ := withUserName?_eq_some (u := u) named
      rfl
  have second : v.scheme = w.scheme := by
    cases password with
    | none => cases kept; rfl
    | some secret =>
      obtain ⟨a, b, -, rfl, -⟩ := withPassword?_eq_some (u := w) kept
      rfl
  exact second.trans first

/-- A URL that takes credentials has an authority. -/
theorem authority_of_withCredentials? {userName password : Option String}
    (given : userName.isSome = true ∨ password.isSome = true)
    (put : u.withCredentials? userName password = some v) : u.authority.isSome = true := by
  obtain ⟨w, named, kept⟩ := Option.bind_eq_some_iff.mp put
  have found {a : Authority} (authority : u.authority = some a) : u.authority.isSome = true := by
    rw [authority]
    rfl
  cases userName with
  | some name =>
    obtain ⟨a, b, authority, -⟩ := withUserName?_eq_some (u := u) named
    exact found authority
  | none =>
    cases named
    cases password with
    | none => simp at given
    | some secret =>
      obtain ⟨a, b, authority, -⟩ := withPassword?_eq_some (u := u) kept
      exact found authority

/-- A URL that names a host takes any credentials. -/
theorem exists_withCredentials? {a : Authority} (host : u.host? = some a)
    (userName password : Option String) : ∃ v, u.withCredentials? userName password = some v := by
  have named : ∃ w b, u.withGivenName? userName = some w ∧ w.host? = some b := by
    cases userName with
    | none => exact ⟨u, a, rfl, host⟩
    | some name =>
      have stays := (host?_eq_some.mp host).2
      exact ⟨_, _, Option.map_eq_some_iff.mpr ⟨a, host, rfl⟩, host?_eq_some.mpr ⟨rfl, stays⟩⟩
  obtain ⟨w, b, put, host'⟩ := named
  cases password with
  | none => exact ⟨w, Option.bind_eq_some_iff.mpr ⟨w, put, rfl⟩⟩
  | some secret =>
    exact ⟨_, Option.bind_eq_some_iff.mpr ⟨w, put, Option.map_eq_some_iff.mpr ⟨b, host', rfl⟩⟩⟩

/-- Without a host no credentials can be put in. -/
theorem withCredentials?_of_hostless {userName password : Option String} (hostless : u.host? = none)
    (given : (userName.isSome || password.isSome) = true) :
    u.withCredentials? userName password = none := by
  cases userName with
  | some name =>
    have refused : u.withGivenName? (some name) = none := Option.map_eq_none_iff.mpr hostless
    rw [withCredentials?, refused, Option.bind_none]
  | none =>
    cases password with
    | some secret => exact Option.map_eq_none_iff.mpr hostless
    | none => cases given

/-- Credentials that are not put in stay those of the URL. -/
theorem withCredentials?_reads {userName password : Option String}
    (put : u.withCredentials? userName password = some v) :
    v.plainUserName? = userName.elim u.plainUserName? (plainText? ·.toList) ∧
      v.plainPassword? = password.elim u.plainPassword? (plainText? ·.toList) := by
  obtain ⟨w, named, kept⟩ := Option.bind_eq_some_iff.mp put
  have first : w.plainUserName? = userName.elim u.plainUserName? (plainText? ·.toList) ∧
      w.plainPassword? = u.plainPassword? := by
    cases userName with
    | none =>
      cases named
      exact ⟨rfl, rfl⟩
    | some name => exact ⟨plainUserName?_withUserName? named, plainPassword?_withUserName? named⟩
  cases password with
  | none =>
    cases kept
    exact first
  | some secret =>
    exact ⟨(plainUserName?_withPassword? kept).trans first.1, plainPassword?_withPassword? kept⟩

/-- **Credentials put in are read as what they decode to.** -/
theorem Settled.withCredentials? {userName password : Option String} (h : u.Settled)
    (put : u.withCredentials? userName password = some v) :
    v.Settled ∧ (∀ name ∈ userName, v.plainUserName? = plainText? name.toList) ∧
      ∀ secret ∈ password, v.plainPassword? = plainText? secret.toList := by
  obtain ⟨user, pass⟩ := withCredentials?_reads put
  refine ⟨?_, fun name given => ?_, fun secret given => ?_⟩
  · obtain ⟨w, named, kept⟩ := Option.bind_eq_some_iff.mp put
    have hw : w.Settled := by
      cases userName with
      | none => cases named; exact h
      | some name => exact (h.withUserName? (v := w) named).1
    cases password with
    | none => cases kept; exact hw
    | some secret => exact (hw.withPassword? (v := v) kept).1
  · rw [user, Option.mem_def.mp given, Option.elim_some]
  · rw [pass, Option.mem_def.mp given, Option.elim_some]

end

end Url

/-! ## What putting credentials in replaces -/

namespace Authority

/-- An authority with the user name and the password in it that are given, encoded; an empty
password takes the password away. -/
def replaced (a : Authority) (userName password : Option String) : Authority :=
  { a with
    userName := userName.elim a.userName (Percent.encode Percent.isUserInfo ·.toList)
    password := password.elim a.password fun secret =>
      if secret = "" then none else some (Percent.encode Percent.isUserInfo secret.toList) }

theorem replaced_replaced (a : Authority) (userName password : Option String) :
    (a.replaced userName password).replaced userName password = a.replaced userName password := by
  cases userName <;> cases password <;> rfl

end Authority

namespace Url

variable {u v : Url} {a : Authority}

theorem encode_isEmpty (s : String) :
    (Percent.encode Percent.isUserInfo s.toList).isEmpty = decide (s = "") := by
  rw [Bool.eq_iff_iff, List.isEmpty_iff, Percent.encode_eq_nil, decide_eq_true_eq,
    String.toList_eq_nil_iff]

/-- **Putting credentials in replaces those and nothing else.** -/
theorem withCredentials?_eq {userName password : Option String} (authority : u.authority = some a)
    (put : u.withCredentials? userName password = some v) :
    v = { u with authority := some (a.replaced userName password) } := by
  obtain ⟨w, named, kept⟩ := Option.bind_eq_some_iff.mp put
  have first : w = { u with authority := some (a.replaced userName none) } := by
    cases userName with
    | none =>
      cases named
      rw [Authority.replaced, Option.elim_none, Option.elim_none, ← authority]
    | some name =>
      obtain ⟨b, host, rfl⟩ := Option.map_eq_some_iff.mp named
      cases authority.symm.trans (host?_eq_some.mp host).1
      rfl
  cases password with
  | none =>
    cases kept
    exact first
  | some secret =>
    obtain ⟨b, host, rfl⟩ := Option.map_eq_some_iff.mp kept
    have found := (host?_eq_some.mp host).1
    rw [first] at found
    cases found
    rw [first]
    simp only [encode_isEmpty, Authority.replaced, decide_eq_true_eq]
    rfl

/-- So they are put in once and for all. -/
theorem withCredentials?_again {userName password : Option String} (authority : u.authority = some a)
    (put : u.withCredentials? userName password = some v) :
    v.withCredentials? userName password = some v := by
  by_cases given : (userName.isSome || password.isSome) = true
  · have host : u.host? = some a := by
      cases hosted : u.host? with
      | none =>
        rw [withCredentials?_of_hostless hosted given] at put
        cases put
      | some b => rw [← authority, (host?_eq_some.mp hosted).1]
    cases withCredentials?_eq authority put
    have again : ({ u with authority := some (a.replaced userName password) } : Url).host? =
        some (a.replaced userName password) :=
      host?_eq_some.mpr ⟨rfl, (host?_eq_some.mp host).2⟩
    obtain ⟨w, more⟩ := exists_withCredentials? again userName password
    have same := withCredentials?_eq rfl more
    rw [Authority.replaced_replaced] at same
    rw [more, same]
  · rw [Bool.or_eq_true, not_or, Bool.not_eq_true, Bool.not_eq_true, Option.isSome_eq_false_iff,
      Option.isNone_iff_eq_none, Option.isSome_eq_false_iff, Option.isNone_iff_eq_none] at given
    rw [given.1, given.2]
    rfl

/-! ## Reading the text -/

/-- The text of a settled URL is read like the URL. -/
theorem Settled.readIn_text [HostNames] {α : Type} {u : Url} (h : u.Settled) {part : Url → Option α}
    (same : ∀ v : Url, v.authority = u.authority → part v = part u) :
    readIn part u.text = part u := by
  rw [readIn, ofText, text, String.toList_ofList, ofChars_chars h]
  exact same _ rfl

theorem plainUserName?_congr {u v : Url} (h : v.authority = u.authority) :
    v.plainUserName? = u.plainUserName? := by
  rw [plainUserName?, plainUserName?, h]

theorem plainPassword?_congr {u v : Url} (h : v.authority = u.authority) :
    v.plainPassword? = u.plainPassword? := by
  rw [plainPassword?, plainPassword?, h]

/-- What drivers read in the user information of a text, for the credentials given. -/
def UserInfoReads [HostNames] (userName password : Option String) (text : String) : Prop :=
  (∀ name ∈ userName, ReadsAs name (readIn plainUserName? text)) ∧
    ∀ secret ∈ password, ReadsAs secret (readIn plainPassword? text)

/-- Credentials that a settled URL was given are read in its text. -/
theorem userInfoReads [HostNames] {userName password : Option String} {text : String}
    (put : userName.isSome = true ∨ password.isSome = true →
      ∃ u v : Url, u.Settled ∧ u.withCredentials? userName password = some v ∧ text = v.text) :
    UserInfoReads userName password text := by
  refine ⟨fun name given => ?_, fun secret given => ?_⟩
  · obtain ⟨u, v, hu, taken, rfl⟩ := put (.inl (by rw [Option.mem_def.mp given]; rfl))
    obtain ⟨hv, name_reads, -⟩ := hu.withCredentials? taken
    rw [hv.readIn_text fun w same => plainUserName?_congr same, name_reads name given]
    exact readsAs_plainText? name
  · obtain ⟨u, v, hu, taken, rfl⟩ := put (.inr (by rw [Option.mem_def.mp given]; rfl))
    obtain ⟨hv, -, password_reads⟩ := hu.withCredentials? taken
    rw [hv.readIn_text fun w same => plainPassword?_congr same, password_reads secret given]
    exact readsAs_plainText? secret

end Url

end NamedStores
