/-
Which records a Redis handle takes, and what it reports of the others. A record is put to six
checks, each of them about what it and its address say and none about how that is found out. It is
taken exactly when all of them hold; otherwise the first that fails is reported, with the field
and the reason that belong to it, and the handle stays as it was.
-/
import NamedStores.KeyValue.Driver
import NamedStores.KeyValue.Memory
import NamedStores.Proofs.Checks
import NamedStores.Proofs.Credentials

namespace NamedStores.KeyValue

/-! ## What a record says -/

section

variable [Url.HostNames] (record : Record)

/-- The record gives an address. -/
def Addressed (address : String) : Prop :=
  record.get? "address" = some (.string address)

/-- The record gives a database by its index, or none: a field that is null gives none. -/
def Indexed : Option Int → Prop
  | none => record.get? "database_index" = none ∨ record.get? "database_index" = some .null
  | some n => record.get? "database_index" = some (.integer n) ∧ 0 ≤ n ∧ n < 0x8000000000000000

/-- The address of the record is a URL, with a scheme of Redis. -/
def Located (url : Url) : Prop :=
  ∃ address, Addressed record address ∧ Url.ofText (addressText address) = .ok url ∧
    isSupported url.scheme = true

/-- The record gives a user name or a password. -/
def Credited : Prop :=
  ∃ text, record.get? "user_name" = some (.string text) ∨
    record.get? "password" = some (.string text)

/-! ## The checks -/

inductive Check where
  | address
  | index
  | url
  | database
  | agreement
  | host
  deriving DecidableEq

def Holds : Check → Prop
  | .address => ∃ address, Addressed record address
  | .index => ∃ explicit, Indexed record explicit
  | .url => ∃ url, Located record url
  | .database => ∃ url named, Located record url ∧ Names url named
  | .agreement => ∀ url i j, Indexed record (some i) → Located record url →
      Names url (some j) → i = j
  | .host => ∀ url, Located record url → isSocketScheme url.scheme = false → Credited record →
      ∃ a, url.authority = some a ∧ a.host ≠ []

/-- What is reported of a record for a check that fails. -/
inductive Reported : Check → Defect → Prop where
  | address : Reported .address ⟨"address field", "mandatory address field not exist"⟩
  | indexKind (v : Json) (found : String) : record.get? "database_index" = some v →
      v.signed? = none → found = v.text →
      Reported .index ⟨"database_index field",
        s!"database_index field must be an integer, not {found}"⟩
  | indexSign (v : Json) (n : Int) : record.get? "database_index" = some v → v.signed? = some n →
      n < 0 →
      Reported .index ⟨"database_index field", "database_index field must not be negative"⟩
  | url (address message : String) (flaw : Url.Flaw) : Addressed record address →
      Url.ofText (addressText address) = .error flaw → message = flaw.message →
      Reported .url ⟨"address field", s!"Invalid address: {message}"⟩
  | scheme (address scheme : String) (url : Url) : Addressed record address →
      Url.ofText (addressText address) = .ok url → scheme = String.ofList url.scheme →
      Reported .url ⟨"address field", s!"unsupported Redis address scheme '{scheme}'"⟩
  | database (url : Url) (db : String) : Located record url → NamesBy url db →
      Reported .database ⟨"address field", s!"address names database '{db}', not a database number"⟩
  | agreement (url : Url) (i j : Int) : Indexed record (some i) → Located record url →
      Names url (some j) → Reported .agreement ⟨"database_index field",
        s!"database_index {i} conflicts with database {j} in the address"⟩
  | userName (name : String) : record.get? "user_name" = some (.string name) →
      Reported .host ⟨"address field", "Address cannot carry a user name"⟩
  | password (secret : String) : (∀ name, record.get? "user_name" ≠ some (.string name)) →
      record.get? "password" = some (.string secret) →
      Reported .host ⟨"address field", "Address cannot carry a password"⟩

/-- The checks of a record, the first first. -/
def checks : Checks Check where
  order := [.address, .index, .url, .database, .agreement, .host]
  Holds := Holds record
  Reported := Reported record

end

/-! ## Each check -/

variable {record : Record} {α : Type}

/-- A reason for which the address is to blame. -/
def blamed (x : Except String α) : Except Defect α :=
  x.mapError fun reason => ⟨"address field", reason⟩

theorem address_checked [Url.HostNames] (record : Record) : (checks record).Checked .address
    (Addressed record) (record.requiredText "address") := by
  rw [Record.requiredText_eq]
  cases given : record.optionalText "address" with
  | some address =>
    have found := Record.optionalText_eq_some.mp given
    exact .inl ⟨address, rfl, found, address, found⟩
  | none =>
    refine .inr ⟨_, rfl, .address, fun held => ?_⟩
    obtain ⟨address, found⟩ := held
    cases given.symm.trans (Record.optionalText_eq_some.mpr found)

/-- The index a record gives, which is not to be negative. -/
def readIndex (record : Record) : Except Defect (Option Int) :=
  (record.optionalInteger "database_index").bind fun explicit =>
    if explicit.any (· < 0) then
      .error ⟨"database_index field", "database_index field must not be negative"⟩
    else .ok explicit

/-- An index is an integer that 64 bits hold, from 0 on. -/
theorem indexed_some {n : Int} : Indexed record (some n) ↔
    ∃ v, record.get? "database_index" = some v ∧ v.signed? = some n ∧ 0 ≤ n := by
  constructor
  · rintro ⟨found, low, high⟩
    refine ⟨_, found, Json.signed?_eq_some.mpr ⟨rfl, ?_⟩, low⟩
    simp only [Integer.fits64, Bool.and_eq_true, decide_eq_true_eq]
    omega
  · rintro ⟨v, found, read, low⟩
    obtain ⟨rfl, fits⟩ := Json.signed?_eq_some.mp read
    simp only [Integer.fits64, Bool.and_eq_true, decide_eq_true_eq] at fits
    exact ⟨found, low, fits.2⟩

theorem index_checked [Url.HostNames] (record : Record) :
    (checks record).Checked .index (Indexed record) (readIndex record) := by
  have taken {explicit : Option Int} (read : readIndex record = .ok explicit)
      (indexed : Indexed record explicit) :
      (checks record).Checked .index (Indexed record) (readIndex record) :=
    .inl ⟨explicit, read, indexed, explicit, indexed⟩
  have refused {v : Json} (found : record.get? "database_index" = some v) (other : v ≠ .null)
      (h : ∀ n, v.signed? = some n → n < 0) : ¬ Holds record .index := by
    rintro ⟨explicit, indexed⟩
    cases explicit with
    | none =>
      rcases indexed with absent | null
      · cases found.symm.trans absent
      · cases found.symm.trans null
        exact other rfl
    | some n =>
      obtain ⟨v', same, read, low⟩ := indexed_some.mp indexed
      cases found.symm.trans same
      exact absurd (h n read) (Int.not_lt.mpr low)
  cases found : record.get? "database_index" with
  | none =>
    have missing : Indexed record none := .inl found
    refine taken ?_ missing
    rw [readIndex, Record.optionalInteger, found]
    rfl
  | some v =>
    by_cases null : v = .null
    · have missing : Indexed record none := .inr (by rw [found, null])
      refine taken ?_ missing
      rw [readIndex, Record.optionalInteger, found, null]
      rfl
    · cases read : v.signed? with
      | none =>
        refine .inr ⟨_, ?_, .indexKind v v.text found read rfl,
          refused found null fun n h => by cases read.symm.trans h⟩
        rw [readIndex, Record.optionalInteger_error found null read rfl]
        rfl
      | some n =>
        have index : readIndex record = if (some n).any (· < 0) then
            .error ⟨"database_index field", "database_index field must not be negative"⟩
            else .ok (some n) := by
          rw [readIndex, Record.optionalInteger_ok found read]
          rfl
        by_cases low : 0 ≤ n
        · refine taken ?_ (indexed_some.mpr ⟨v, found, read, low⟩)
          rw [index, if_neg (by simpa using low)]
        · refine .inr ⟨_, ?_, .indexSign v n found read (by omega),
            refused found null fun m h => by cases read.symm.trans h; omega⟩
          rw [index, if_pos (by simpa using low)]

theorem parseAddress_error [Url.HostNames] {address : String} {url : Url}
    (read : Url.ofText (addressText address) = .ok url) (other : isSupported url.scheme = false)
    {scheme : String} (shown : scheme = String.ofList url.scheme) :
    parseAddress address = .error s!"unsupported Redis address scheme '{scheme}'" := by
  simp only [parseAddress, shown]
  rw [← addressText, read]
  simp only [other]
  rfl

theorem parseAddress_flaw [Url.HostNames] {address : String} {flaw : Url.Flaw}
    (read : Url.ofText (addressText address) = .error flaw) {message : String}
    (shown : message = flaw.message) :
    parseAddress address = .error s!"Invalid address: {message}" := by
  simp only [parseAddress, shown]
  rw [← addressText, read]

theorem url_checked [Url.HostNames] {address : String} (given : Addressed record address) :
    (checks record).Checked .url (Located record) (blamed (parseAddress address)) := by
  have refused (h : ∀ url, parseAddress address ≠ .ok url) : ¬ Holds record .url := by
    rintro ⟨url, address', given', read, supported⟩
    cases given.symm.trans given'
    exact h url (parseAddress_ok.mpr ⟨read, supported⟩)
  cases read : Url.ofText (addressText address) with
  | error flaw =>
    have parsed := parseAddress_flaw read rfl
    exact .inr ⟨_, congrArg blamed parsed, .url address flaw.message flaw given read rfl,
      refused fun url other => by cases parsed.symm.trans other⟩
  | ok url =>
    cases supported : isSupported url.scheme with
    | true =>
      have located : Located record url := ⟨address, given, read, supported⟩
      exact .inl ⟨url, congrArg blamed (parseAddress_ok.mpr ⟨read, supported⟩), located, url, located⟩
    | false =>
      have parsed := parseAddress_error read supported rfl
      exact .inr ⟨_, congrArg blamed parsed,
        .scheme address (String.ofList url.scheme) url given read rfl,
        refused fun url other => by cases parsed.symm.trans other⟩

/-- The URL of a record is the one its address is parsed as. -/
theorem located_iff [Url.HostNames] {address : String} (given : Addressed record address) {url : Url} :
    Located record url ↔ parseAddress address = .ok url := by
  rw [parseAddress_ok]
  constructor
  · rintro ⟨address', given', read⟩
    cases given.symm.trans given'
    exact read
  · exact fun read => ⟨address, given, read⟩

theorem database_checked [Url.HostNames] {address : String} {url : Url}
    (given : Addressed record address) (parsed : parseAddress address = .ok url) :
    (checks record).Checked .database (Names url) (blamed (addressDatabase address)) := by
  cases read : addressDatabase address with
  | ok named =>
    have names := (addressDatabase_of_url parsed named).mp read
    exact .inl ⟨named, rfl, names, url, named, (located_iff given).mpr parsed, names⟩
  | error reason =>
    refine .inr ⟨_, rfl, ?_, ?_⟩
    · simp only [addressDatabase, parsed, bind, Except.bind] at read
      split at read
      · cases read
      · rename_i db found
        split at read
        · cases read
        · cases read
          exact .database url db ((located_iff given).mpr parsed) (databaseText?_eq_some.mp found)
    · rintro ⟨url', named, located, names⟩
      cases parsed.symm.trans ((located_iff given).mp located)
      cases read.symm.trans ((addressDatabase_of_url parsed named).mpr names)

/-- The database in force, where the record and its address agree on one. -/
def agreed (explicit named : Option Int) : Except Defect Int :=
  match explicit, named with
  | some i, some j =>
    if i = j then .ok i
    else .error ⟨"database_index field",
      s!"database_index {i} conflicts with database {j} in the address"⟩
  | some i, none => .ok i
  | none, some j => .ok j
  | none, none => .ok 0

theorem agreement_checked [Url.HostNames] {explicit named : Option Int} {url : Url}
    (indexed : Indexed record explicit) (located : Located record url) (names : Names url named) :
    (checks record).Checked .agreement (fun _ => True) (agreed explicit named) := by
  -- Each of the two says one thing at most.
  have index {i : Int} (other : Indexed record (some i)) : explicit = some i := by
    cases explicit with
    | none =>
      rcases indexed with absent | null
      · cases absent.symm.trans other.1
      · cases null.symm.trans other.1
    | some n => cases indexed.1.symm.trans other.1; rfl
  have name {url' : Url} {j : Int} (other : Located record url') (names' : Names url' (some j)) :
      named = some j := by
    obtain ⟨address, given, read⟩ := located
    have parsed := parseAddress_ok.mpr read
    cases parsed.symm.trans ((located_iff given).mp other)
    have first := (addressDatabase_of_url parsed named).mpr names
    cases first.symm.trans ((addressDatabase_of_url parsed (some j)).mpr names')
    rfl
  cases explicit with
  | none =>
    have held : Holds record .agreement := fun url' i j other _ _ => by cases index other
    cases named with
    | none => exact .inl ⟨0, rfl, trivial, held⟩
    | some j => exact .inl ⟨j, rfl, trivial, held⟩
  | some i =>
    cases named with
    | none =>
      exact .inl ⟨i, rfl, trivial, fun url' i j _ other names' => by cases name other names'⟩
    | some j =>
      by_cases same : i = j
      · refine .inl ⟨i, if_pos same, trivial, fun url' k l other located' names' => ?_⟩
        cases index other
        cases name located' names'
        exact same
      · exact .inr ⟨_, if_neg same, .agreement url i j indexed located names,
          fun held => same (held url i j indexed located names)⟩

/-- What settings carry when they are read from a record. -/
structure Carries [Url.HostNames] (record : Record) (s : Settings) (parsed : Url) : Prop where
  address : Addressed record s.address
  parsed : parseAddress s.address = .ok parsed
  userName : s.userName = record.optionalText "user_name"
  password : s.password = record.optionalText "password"

theorem host_checked [Url.HostNames] {s : Settings} {parsed : Url}
    (h : Carries record s parsed) :
    (checks record).Checked .host (fun _ => True) (blamed s.connectionUrl) := by
  have located := (located_iff h.address).mpr h.parsed
  have only {url : Url} (other : Located record url) : url = parsed := by
    cases h.parsed.symm.trans ((located_iff h.address).mp other)
    rfl
  cases socket : isSocketScheme parsed.scheme with
  | true =>
    have built : s.connectionUrl = .ok (parsed.withQueryPairs (s.socketPairs parsed.queryPairs)) := by
      simp only [Settings.connectionUrl, h.parsed, bind, Except.bind, socket]
      rfl
    refine .inl ⟨_, congrArg blamed built, trivial, fun url other plain => ?_⟩
    rw [only other, socket] at plain
    cases plain
  | false =>
    cases host : (parsed.withIndexPath s.database).host? with
    | some a =>
      obtain ⟨url, put⟩ := Url.exists_withCredentials? host s.userName s.password
      have built := (Settings.connectionUrl_credentials h.parsed socket).mpr put
      refine .inl ⟨url, congrArg blamed built, trivial, fun url' other _ _ => ?_⟩
      rw [only other]
      exact ⟨a, Url.host?_eq_some.mp host⟩
    | none =>
      have hostless : ¬ ∃ a, parsed.authority = some a ∧ a.host ≠ [] := by
        rintro ⟨a, found⟩
        cases host.symm.trans (Url.host?_eq_some.mpr found)
      have refused (credited : Credited record) : ¬ Holds record .host := fun held =>
        hostless (held parsed located socket credited)
      have built := Settings.connectionUrl_plain h.parsed socket
      cases user : s.userName with
      | some name =>
        have given := Record.optionalText_eq_some.mp (h.userName.symm.trans user)
        refine .inr ⟨_, ?_, .userName name given, refused ⟨name, .inl given⟩⟩
        simp [built, blamed, Settings.withUser, user, Url.withUserName?, host, Except.bind,
          Handle.mapError_error]
      | none =>
        have unnamed (name : String) : record.get? "user_name" ≠ some (.string name) := fun found => by
          cases (h.userName.symm.trans user).symm.trans (Record.optionalText_eq_some.mpr found)
        cases pass : s.password with
        | some secret =>
          have given := Record.optionalText_eq_some.mp (h.password.symm.trans pass)
          refine .inr ⟨_, ?_, .password secret unnamed given, refused ⟨secret, .inr given⟩⟩
          simp [built, blamed, Settings.withUser, Settings.withSecret, user, pass,
            Url.withPassword?, host, Except.bind, Handle.mapError_error]
        | none =>
          refine .inl ⟨parsed.withIndexPath s.database, ?_, trivial, fun url _ _ credited => ?_⟩
          · simp [built, blamed, Settings.withUser, Settings.withSecret, user, pass, Except.bind,
              Handle.mapError_ok]
          · obtain ⟨text, name | secret⟩ := credited
            · exact absurd name (unnamed text)
            · cases (h.password.symm.trans pass).symm.trans (Record.optionalText_eq_some.mpr secret)

/-! ## All of them -/

/-- An address that is no URL names no database for the same reason. -/
theorem blamed_addressDatabase [Url.HostNames] (address : String) :
    blamed (addressDatabase address) =
    (blamed (parseAddress address)).bind fun _ => blamed (addressDatabase address) := by
  cases parsed : parseAddress address with
  | error reason =>
    have failed : addressDatabase address = .error reason := by
      simp only [addressDatabase, parsed, bind, Except.bind]
    simp only [failed, blamed, Handle.mapError_error, Except.bind]
  | ok url => simp only [blamed, Handle.mapError_ok, Except.bind]

theorem ofRecord_eq [Url.HostNames] (record : Record) : Settings.ofRecord record =
    (record.requiredText "address").bind fun address => (readIndex record).bind fun explicit =>
      (blamed (parseAddress address)).bind fun _ => (blamed (addressDatabase address)).bind fun named =>
        (agreed explicit named).map fun database =>
          ⟨address, record.optionalText "user_name", record.optionalText "password", database⟩ := by
  rw [Settings.ofRecord, readIndex]
  simp only [bind]
  cases record.requiredText "address" with
  | error d => simp only [Except.bind]
  | ok address =>
    cases record.optionalInteger "database_index" with
    | error d => simp only [Except.bind]
    | ok explicit =>
      simp only [Except.bind]
      split
      · rfl
      · dsimp only
        rw [← blamed, blamed_addressDatabase]
        cases blamed (parseAddress address) with
        | error d => simp only [Except.bind]
        | ok url =>
          simp only [Except.bind]
          cases blamed (addressDatabase address) with
          | error d => rfl
          | ok named =>
            cases explicit with
            | none => cases named <;> rfl
            | some i =>
              cases named with
              | none => rfl
              | some j =>
                simp only [agreed]
                split <;> rfl

theorem usable_eq [Url.HostNames] (record : Record) : Settings.usable record =
    (Settings.ofRecord record).bind fun s => (blamed s.connectionUrl).map fun _ => s := by
  rw [Settings.usable]
  simp only [bind]
  cases Settings.ofRecord record with
  | error d => simp only [Except.bind]
  | ok s =>
    simp only [Except.bind]
    cases s.connectionUrl <;> rfl

theorem ofRecord_decided [Url.HostNames] (record : Record) :
    (checks record).Decided (fun s => (∃ parsed, Carries record s parsed) ∧
      ∀ check ∈ [.address, .index, .url, .database, .agreement], Holds record check)
      (Settings.ofRecord record) := by
  rw [ofRecord_eq]
  refine (address_checked record).bind [] rfl (by simp) fun address given held => ?_
  refine (index_checked record).bind [.address] rfl held fun explicit indexed held => ?_
  refine (url_checked given).bind [.address, .index] rfl held fun url located held => ?_
  have parsed := (located_iff given).mp located
  refine (database_checked given parsed).bind [.address, .index, .url] rfl held
    fun named names held => ?_
  refine ((agreement_checked indexed located names).decided [.address, .index, .url, .database] rfl
    held).map fun database found => ?_
  exact ⟨⟨url, given, parsed, rfl, rfl⟩, found.2⟩

/-- **A record is taken when all checks hold, and refused for the first that fails.** -/
theorem usable_decided [Url.HostNames] (record : Record) :
    (checks record).Decided (fun _ => ∀ check, Holds record check) (Settings.usable record) := by
  rw [usable_eq]
  refine (ofRecord_decided record).bind fun s read => ?_
  obtain ⟨⟨parsed, carries⟩, held⟩ := read
  refine ((host_checked carries).decided [.address, .index, .url, .database, .agreement] rfl
    held).map fun url found check => ?_
  exact found.2 check (by cases check <;> simp)

/-! ## Handles -/

/-- **What a Redis handle takes from a record.** It is configured exactly when all six checks hold
of the record. Otherwise it reports the first that fails and stays as it was. -/
theorem configure_checks [Url.HostNames] {ω κ : Type} (d : Driver ω κ) (c : Configuration)
    (part : String) {h : Handle κ} (unset : h.settings = none)
    (found : c.record part h.name = .ok record) :
    ((∃ s, h.configure d.backend c part = .ok (s, { h with settings := some s })) ↔
      ∀ check, Holds record check) ∧
    ((¬ ∀ check, Holds record check) → ∃ check defect, (checks record).FirstFails check ∧
      Reported record check defect ∧ h.configure d.backend c part = .error (.defect defect) ∧
      h.apply d.backend c part = (.error (.setback (.defect defect)), h)) := by
  have configured : h.configure d.backend c part =
      ((Settings.usable record).mapError .defect).map fun s => (s, { h with settings := some s }) := by
    have reads : d.backend.readSettings record = Settings.usable record := rfl
    simp only [NamedStores.Handle.configure, unset, found, reads]
    cases Settings.usable record <;> rfl
  obtain ⟨accepted, refused⟩ := (usable_decided record).verdict
  constructor
  · refine Iff.trans ?_ accepted
    rw [configured]
    cases Settings.usable record with
    | ok s => exact ⟨fun _ => ⟨s, rfl⟩, fun _ => ⟨s, rfl⟩⟩
    | error d => constructor <;> rintro ⟨s, other⟩ <;> cases other
  · intro fails
    obtain ⟨check, d, first, reported, same⟩ := refused fails
    rw [same] at configured
    refine ⟨check, d, first, reported, configured, ?_⟩
    rw [NamedStores.Handle.apply, configured]
    rfl

/-- A record whose index is the one in its address. -/
def agreeingRecord : Record :=
  [("address", .string "cache:6379/3"), ("database_index", .integer 3)]

/-- A record with this address, and what is reported of it. -/
def refusal (address reason : String) : Record × Defect :=
  ([("address", .string address), ("password", .string "x")], ⟨"address field", reason⟩)

/-- An address with no host for the password to go to, and addresses of web resources: such as are
no URLs, and one that is. -/
def refusals : List (Record × Defect) := [
  refusal "redis:///2" "Address cannot carry a password",
  refusal "http://" "Invalid address: empty host",
  refusal "http://[bad" "Invalid address: invalid IPv6 address",
  refusal "https://user@0x7f.1.300.1" "Invalid address: invalid IPv4 address",
  refusal "ws://h:99999/" "Invalid address: invalid port number",
  refusal "file://h:80/x" "Invalid address: invalid international domain name",
  refusal "FTP://h:80" "unsupported Redis address scheme 'ftp'"]

/-- A document with one handle, of this record. -/
def documentWith (record : Record) : Configuration :=
  ⟨[("redis", .object [("cache", .object record)])]⟩

/-- The handle, as it is before it is configured. -/
def unsetHandle : Handle Client := Handle.create "cache" ⟨false, false⟩ "redis" 0

/-- What configuring it with a record comes to. -/
def tried (record : Record) : Except Setback (Settings × Handle Client) :=
  unsetHandle.configure Memory.driver.backend (documentWith record) "redis"

theorem records_checked :
    (∀ check, Holds agreeingRecord check) ∧
      ∀ r ∈ refusals, ∃ check, (checks r.1).FirstFails check ∧ Reported r.1 check r.2 := by
  have checked (record : Record)
      (found : (documentWith record).record "redis" unsetHandle.name = .ok record) :=
    configure_checks Memory.driver (documentWith record) "redis" (h := unsetHandle) rfl found
  constructor
  · obtain ⟨-, otherwise⟩ := checked agreeingRecord rfl
    have seen : (tried agreeingRecord).map (·.1.database) = .ok 3 := by decide +kernel
    by_contra fails
    obtain ⟨_, _, -, -, failed, -⟩ := otherwise fails
    rw [tried, failed] at seen
    cases seen
  · intro r listed
    have all : (refusals.all fun r =>
        (tried r.1).map (·.1.database) = .error (.defect r.2)) = true := by decide +kernel
    have seen := of_decide_eq_true (List.all_eq_true.mp all r listed)
    obtain ⟨⟨-, taken⟩, otherwise⟩ := checked r.1 rfl
    have fails : ¬ ∀ check, Holds r.1 check := fun holds => by
      obtain ⟨s, configured⟩ := taken holds
      rw [tried, configured] at seen
      cases seen
    obtain ⟨check, defect, first, reported, failed, -⟩ := otherwise fails
    rw [tried, failed] at seen
    cases seen
    exact ⟨check, first, reported⟩

end NamedStores.KeyValue
