/-
The credentials of a record on their way to a driver. A socket's stand in the query and arrive
as they were given. All others stand in the user information of the connection URL, where
everything is encoded but `%`: what a driver reads there is what the text given decodes to, and
that is another text as soon as `%` stands before two hex digits in it.
-/
import NamedStores.KeyValue.Resp
import NamedStores.Proofs.Handle.Life
import NamedStores.Proofs.Json.Ordered
import NamedStores.Proofs.KeyValue.Database
import NamedStores.Proofs.Url.Hostless
import NamedStores.Proofs.Url.UserInfo
import NamedStores.Sql.Settings

namespace NamedStores

/-! ## Database handles -/

namespace Sql.Settings

theorem withCredentials_of_read [Url.HostNames] {address : String} {url : Url}
    (read : Url.ofText address = .ok url)
    (userName password : Option String) : withCredentials address userName password =
      (url.withCredentials? userName password).elim (.error "Address cannot carry credentials")
        fun v => .ok v.text := by
  cases userName with
  | none =>
    have unnamed : url.withCredentials? none password = url.withGivenPassword? password := rfl
    cases password with
    | none => simp only [withCredentials, read]; rfl
    | some secret =>
      have put : url.withGivenPassword? (some secret) = url.withPassword? secret := rfl
      simp only [withCredentials, read, unnamed, put, Option.bind_some]
      cases url.withPassword? secret <;> rfl
  | some name =>
    have named : url.withCredentials? (some name) password =
      (url.withUserName? name).bind (·.withGivenPassword? password) := rfl
    simp only [withCredentials, read, named]
    cases url.withUserName? name with
    | none => cases password <;> rfl
    | some v =>
      cases password with
      | none => rfl
      | some secret =>
        have put : v.withGivenPassword? (some secret) = v.withPassword? secret := rfl
        simp only [Option.bind_some, put]
        cases v.withPassword? secret <;> rfl

theorem withCredentials_ok [Url.HostNames] {address text : String}
    {userName password : Option String}
    (h : withCredentials address userName password = .ok text) :
    ∃ parsed url, Url.ofText address = .ok parsed ∧
      parsed.withCredentials? userName password = some url ∧ text = url.text := by
  cases read : Url.ofText address with
  | error flaw => simp only [withCredentials, read] at h; cases h
  | ok parsed =>
    rw [withCredentials_of_read read] at h
    cases put : parsed.withCredentials? userName password with
    | none => rw [put] at h; cases h
    | some url =>
      rw [put] at h
      cases h
      exact ⟨parsed, url, rfl, put, rfl⟩

/-- What accepted settings are read from: a record and the address in it. -/
structure ReadFrom [Url.HostNames] (record : Record) (address : String) (s : Settings) : Prop where
  written : record.requiredText "address" = .ok address
  product : Product.ofAddress? address = some s.product
  user : s.userName = record.optionalText "user_name"
  pass : s.password = record.optionalText "password"
  carried : s.userName.isSome = true ∨ s.password.isSome = true →
    withCredentials address s.userName s.password = .ok s.address
  kept : s.userName = none → s.password = none → s.address = address

theorem ofRecord_readFrom [Url.HostNames] {record : Record} {s : Settings}
    (h : ofRecord record = .ok s) :
    ∃ address, ReadFrom record address s := by
  rw [ofRecord] at h
  cases written : record.requiredText "address" with
  | error d => rw [written] at h; cases h
  | ok address =>
    refine ⟨address, ?_⟩
    cases product : Product.ofAddress? address with
    | none => simp only [written, product, bind, Except.bind] at h; cases h
    | some found =>
      simp only [written, product, bind, Except.bind] at h
      by_cases given : ((record.optionalText "user_name").isSome ||
          (record.optionalText "password").isSome) = true
      · rw [if_pos given] at h
        cases carried : withCredentials address (record.optionalText "user_name")
            (record.optionalText "password") with
        | error reason => simp only [carried, Handle.mapError_error] at h; cases h
        | ok text =>
          simp only [carried, Handle.mapError_ok] at h
          split at h
          · cases h
          · cases h
            refine ⟨written, product, rfl, rfl, fun _ => carried, fun noName noPassword => ?_⟩
            dsimp only at noName noPassword
            rw [noName, noPassword] at given
            cases given
      · rw [if_neg given] at h
        simp only [pure, Except.pure] at h
        split at h
        · cases h
        · cases h
          refine ⟨written, product, rfl, rfl, fun some_given => absurd ?_ given, fun _ _ => rfl⟩
          rwa [Bool.or_eq_true]

/-- What accepted settings hold of the record's credentials. -/
theorem ofRecord_credentials [Url.HostNames] {record : Record} {s : Settings}
    (h : ofRecord record = .ok s) :
    s.userName = record.optionalText "user_name" ∧ s.password = record.optionalText "password" ∧
      (s.userName.isSome = true ∨ s.password.isSome = true →
        ∃ address, withCredentials address s.userName s.password = .ok s.address) := by
  obtain ⟨address, read⟩ := ofRecord_readFrom h
  exact ⟨read.user, read.pass, fun given => ⟨address, read.carried given⟩⟩

theorem userInfoReads [Url.HostNames] {record : Record} {s : Settings}
    (h : ofRecord record = .ok s) :
    Url.UserInfoReads s.userName s.password s.address := by
  obtain ⟨-, -, carried⟩ := ofRecord_credentials h
  refine Url.userInfoReads fun given => ?_
  obtain ⟨address, built⟩ := carried given
  obtain ⟨parsed, url, read, put, text⟩ := withCredentials_ok built
  exact ⟨parsed, url, Url.ofChars_settled read (Url.authority_of_withCredentials? given put), put,
    text⟩

end Sql.Settings

/-! ## Redis handles -/

namespace KeyValue

/-- The last value under a name in the query, which is the one that counts. -/
def lastValue? (name : String) (url : Url) : Option String :=
  (url.queryPairs.reverse.find? (·.1 = name)).map (·.2)

/-- The client of a socket logs in with the last values in the query. -/
theorem Resp.socketTarget_login {url : Url} {t : Resp.Target} (h : Resp.socketTarget url = .ok t) :
    t.userName = lastValue? "user" url ∧ t.password = lastValue? "pass" url := by
  simp only [Resp.socketTarget, Resp.invalid] at h
  split at h
  · cases h
  · split at h
    · cases h
    · split at h
      · cases h
      · cases h
        exact ⟨rfl, rfl⟩

/-- What is read of a socket's URL: the credentials given, of the text and by the client. -/
structure SocketReads [Url.HostNames] (userName password : Option String) (url : Url) : Prop where
  user : Url.readIn (lastValue? "user") url.text = userName
  pass : Url.readIn (lastValue? "pass") url.text = password
  login : ∀ t, Resp.socketTarget url = .ok t → t.userName = userName ∧ t.password = password

namespace Settings

variable {s : Settings} {parsed url : Url}

/-- The credentials of a socket's pairs are those in force. -/
theorem find_socketPairs_login (s : Settings) (pairs : List (String × String)) :
    ((s.socketPairs pairs).reverse.find? (·.1 = "user")).map (·.2) = s.userName ∧
      ((s.socketPairs pairs).reverse.find? (·.1 = "pass")).map (·.2) = s.password := by
  have kept (name : String) (own : name = "user" ∨ name = "pass") :
      (pairs.filter fun p => p.1 ≠ "db" && p.1 ≠ "user" && p.1 ≠ "pass").reverse.find?
        (·.1 = name) = none := by
    refine List.find?_eq_none.mpr fun p hp => ?_
    have others := (List.mem_filter.mp (List.mem_reverse.mp hp)).2
    simp only [Bool.and_eq_true, decide_eq_true_eq, ne_eq] at others ⊢
    rcases own with rfl | rfl
    · exact others.1.2
    · exact others.2
  have user := kept "user" (.inl rfl)
  have pass := kept "pass" (.inr rfl)
  simp only [Settings.socketPairs, List.reverse_append, List.find?_append, user, pass]
  cases s.userName <;> cases s.password <;> exact ⟨rfl, rfl⟩

/-- The URL of a socket reads back with the pairs in force. -/
theorem socket_reads_back [Url.HostNames] (h : parseAddress s.address = .ok parsed)
    (socket : isSocketScheme parsed.scheme = true) (built : s.connectionUrl = .ok url) :
    ∃ again, Url.ofText url.text = .ok again ∧ again.queryPairs = url.queryPairs ∧
      url.queryPairs = s.socketPairs parsed.queryPairs := by
  obtain ⟨read, supported⟩ := parseAddress_ok.mp h
  cases connectionUrl_socket h socket built
  have pairs : (parsed.withQueryPairs (s.socketPairs parsed.queryPairs)).queryPairs =
      s.socketPairs parsed.queryPairs := Form.ofQuery_toQuery _
  rw [Url.ofText, Url.text, String.toList_ofList]
  cases authority : parsed.authority with
  | some a =>
    have settled := (Url.ofChars_settled read (by rw [authority]; rfl)).withQueryPairs
      (s.socketPairs parsed.queryPairs)
    exact ⟨_, Url.ofChars_chars settled, rfl, pairs⟩
  | none =>
    have hostless := (Url.ofChars_hostless read (nonweb_of_isSupported supported)
      authority).withQueryPairs (s.socketPairs parsed.queryPairs)
    obtain ⟨again, same, -, -, query, -⟩ := hostless.ofChars_chars rfl
    refine ⟨again, same, ?_, pairs⟩
    exact congrArg (fun q : Option (List Char) => Form.ofQuery (q.getD [])) query

theorem withUser_eq_ok :
    s.withUser parsed = .ok url ↔ parsed.withGivenName? s.userName = some url := by
  cases given : s.userName with
  | none => simp [withUser, given, Url.withGivenName?]
  | some name =>
    have put : parsed.withGivenName? (some name) = parsed.withUserName? name := rfl
    rw [put]
    cases named : parsed.withUserName? name <;> simp [withUser, given, named]

theorem withSecret_eq_ok :
    s.withSecret parsed = .ok url ↔ parsed.withGivenPassword? s.password = some url := by
  cases given : s.password with
  | none => simp [withSecret, given, Url.withGivenPassword?]
  | some secret =>
    have put : parsed.withGivenPassword? (some secret) = parsed.withPassword? secret := rfl
    rw [put]
    cases done : parsed.withPassword? secret <;> simp [withSecret, given, done]

/-- The credentials of a TCP address are put into its user information. -/
theorem connectionUrl_credentials [Url.HostNames] (h : parseAddress s.address = .ok parsed)
    (plain : isSocketScheme parsed.scheme = false) : s.connectionUrl = .ok url ↔
      (parsed.withIndexPath s.database).withCredentials? s.userName s.password = some url := by
  rw [connectionUrl_plain h plain, Url.withCredentials?, Option.bind_eq_some_iff]
  constructor
  · intro built
    cases user : s.withUser (parsed.withIndexPath s.database) with
    | error reason => rw [user] at built; cases built
    | ok named =>
      rw [user] at built
      exact ⟨named, withUser_eq_ok.mp user, withSecret_eq_ok.mp built⟩
  · rintro ⟨named, user, secret⟩
    rw [withUser_eq_ok.mpr user]
    exact withSecret_eq_ok.mpr secret

/-- What is read of the connection URL of a socket is what settings give. -/
theorem socketReads [Url.HostNames] (h : parseAddress s.address = .ok parsed)
    (socket : isSocketScheme parsed.scheme = true) (built : s.connectionUrl = .ok url) :
    SocketReads s.userName s.password url := by
  obtain ⟨again, same, pairs, put⟩ := socket_reads_back h socket built
  obtain ⟨user, pass⟩ := find_socketPairs_login s parsed.queryPairs
  have reads (name : String) : Url.readIn (lastValue? name) url.text = lastValue? name url := by
    rw [Url.readIn, same, lastValue?, ← pairs]
    rfl
  rw [← put] at user pass
  refine ⟨(reads "user").trans user, (reads "pass").trans pass, fun t found => ?_⟩
  obtain ⟨own_user, own_pass⟩ := Resp.socketTarget_login found
  exact ⟨own_user.trans user, own_pass.trans pass⟩

/-- What is read of the connection URL of accepted settings. -/
theorem credentials_read [Url.HostNames] {record : Record} (accepted : usable record = .ok s) :
    ∃ url, s.connectionUrl = .ok url ∧
      (isSocketScheme url.scheme = false → Url.UserInfoReads s.userName s.password url.text) ∧
      (isSocketScheme url.scheme = true → SocketReads s.userName s.password url) := by
  obtain ⟨read, url, built⟩ := usable_ok accepted
  obtain ⟨explicit, named, chosen, nonneg⟩ := ofRecord_ok read
  obtain ⟨parsed, address, -⟩ := addressDatabase_ok.mp chosen.found
  refine ⟨url, built, ?_⟩
  cases socket : isSocketScheme parsed.scheme with
  | true =>
    have scheme : url.scheme = parsed.scheme := by
      rw [connectionUrl_socket address socket built]
      rfl
    rw [scheme, socket]
    exact ⟨(fun plain => by cases plain), fun _ => socketReads address socket built⟩
  | false =>
    have put := (connectionUrl_credentials address socket).mp built
    have scheme : url.scheme = (parsed.withIndexPath s.database).scheme :=
      Url.withCredentials?_scheme put
    have same : (parsed.withIndexPath s.database).scheme = parsed.scheme := rfl
    rw [scheme, same, socket]
    refine ⟨fun _ => Url.userInfoReads fun given => ?_, fun other => by cases other⟩
    have authority : parsed.authority.isSome = true :=
      Url.authority_of_withCredentials? (u := parsed.withIndexPath s.database) given put
    have settled := Url.ofChars_settled (parseAddress_ok.mp address).1 authority
    exact ⟨_, url, (settled.withIndexPath (database_bounds chosen nonneg).1).1, put, rfl⟩

end Settings

end KeyValue

/-! ## Both -/

/-- **Credentials reach the drivers decoded.** Of every record that is accepted, a driver reads in
the user information of the connection string what the user name or password of the record
decodes to, so it is that text exactly when no escape stands in it; what is read in the query
of a socket's URL is the text itself. -/
theorem credentials_reach_drivers [Url.HostNames] (record : Record) :
    (∀ s, Sql.Settings.ofRecord record = .ok s →
      s.userName = record.optionalText "user_name" ∧ s.password = record.optionalText "password" ∧
        Url.UserInfoReads s.userName s.password s.address) ∧
    (∀ s, KeyValue.Settings.usable record = .ok s →
      s.userName = record.optionalText "user_name" ∧ s.password = record.optionalText "password" ∧
        ∃ url, s.connectionUrl = .ok url ∧
          (KeyValue.isSocketScheme url.scheme = false →
            Url.UserInfoReads s.userName s.password url.text) ∧
          (KeyValue.isSocketScheme url.scheme = true →
            KeyValue.SocketReads s.userName s.password url)) := by
  refine ⟨fun s accepted => ?_, fun s accepted => ?_⟩
  · obtain ⟨user, pass, -⟩ := Sql.Settings.ofRecord_credentials accepted
    exact ⟨user, pass, Sql.Settings.userInfoReads accepted⟩
  · obtain ⟨-, -, -, -, user, pass⟩ :=
      KeyValue.Settings.ofRecord_cases (KeyValue.Settings.usable_ok accepted).1
    exact ⟨user, pass, KeyValue.Settings.credentials_read accepted⟩

/-- A record with a password in which an escape stands. -/
def escapedRecord (address : String) : Record :=
  [("address", .string address), ("password", .string "50%25")]

theorem escaped_password_reaches_drivers :
    (∃ s, Sql.Settings.ofRecord (escapedRecord "postgres://db.internal/app") = .ok s ∧
      Url.readIn Url.plainPassword? s.address = some "50%") ∧
    (∃ s url, KeyValue.Settings.usable (escapedRecord "redis://cache.internal") = .ok s ∧
      s.connectionUrl = .ok url ∧ Url.readIn Url.plainPassword? url.text = some "50%") ∧
    (∃ s url, KeyValue.Settings.usable (escapedRecord "unix:///run/redis.sock") = .ok s ∧
      s.connectionUrl = .ok url ∧
      Url.readIn (KeyValue.lastValue? "pass") url.text = some "50%25") := by
  have sql (address : String) := (credentials_reach_drivers (escapedRecord address)).1
  have redis (address : String) := (credentials_reach_drivers (escapedRecord address)).2
  have decoded : Url.plainText? "50%25".toList = some "50%" := by decide +kernel
  have password (address : String) :
    (escapedRecord address).optionalText "password" = some "50%25" := rfl
  have connected (address : String) (isSocket : Bool)
      (shown : ((KeyValue.Settings.usable (escapedRecord address)).toOption.bind fun s =>
        s.connectionUrl.toOption.map fun url => KeyValue.isSocketScheme url.scheme) =
          some isSocket) :
      ∃ s url, KeyValue.Settings.usable (escapedRecord address) = .ok s ∧
        s.connectionUrl = .ok url ∧ KeyValue.isSocketScheme url.scheme = isSocket := by
    obtain ⟨s, accepted, rest⟩ := Option.bind_eq_some_iff.mp shown
    obtain ⟨url, built, scheme⟩ := Option.map_eq_some_iff.mp rest
    exact ⟨s, url, toOption_eq_some.mp accepted, toOption_eq_some.mp built, scheme⟩
  refine ⟨?_, ?_, ?_⟩
  · have shown : (Sql.Settings.ofRecord
        (escapedRecord "postgres://db.internal/app")).toOption.isSome = true := by decide +kernel
    obtain ⟨s, accepted⟩ := Option.isSome_iff_exists.mp shown
    have accepted := toOption_eq_some.mp accepted
    obtain ⟨-, own, reads⟩ := sql _ s accepted
    have given := own.trans (password _)
    exact ⟨s, accepted, (reads.2 _ given).decoded.trans decoded⟩
  · obtain ⟨s, url, accepted, built, plain⟩ :=
      connected "redis://cache.internal" false (by decide +kernel)
    obtain ⟨-, own, _, same, reads, -⟩ := redis _ s accepted
    cases built.symm.trans same
    have given := own.trans (password _)
    exact ⟨s, url, accepted, built, ((reads plain).2 _ given).decoded.trans decoded⟩
  · obtain ⟨s, url, accepted, built, socket⟩ :=
      connected "unix:///run/redis.sock" true (by decide +kernel)
    obtain ⟨-, own, _, same, -, reads⟩ := redis _ s accepted
    cases built.symm.trans same
    exact ⟨s, url, accepted, built, (reads socket).pass.trans (own.trans (password _))⟩

theorem escaped_password_not_kept :
    ¬ ∀ record s secret, Sql.Settings.ofRecord record = .ok s →
      record.optionalText "password" = some secret →
      Url.readIn Url.plainPassword? s.address = some secret := by
  intro kept
  have shown : ((Sql.Settings.ofRecord (escapedRecord "postgres://db.internal/app")).toOption.bind
      fun s => Url.readIn Url.plainPassword? s.address) = some "50%" := by decide +kernel
  obtain ⟨s, accepted, read⟩ := Option.bind_eq_some_iff.mp shown
  have same := kept _ s "50%25" (toOption_eq_some.mp accepted) rfl
  rw [read] at same
  exact absurd same (by decide)

end NamedStores
