/-
The connection URL of a Redis handle differs from its address in the database and the credentials
alone. Each of the two kinds of address has a part that is rewritten, the path and the user
information of a TCP address and the query of a socket's, and everything else stays. What is
written there reads back as it is, so the text of the connection URL, taken for an address, has
itself for connection URL.
-/
import NamedStores.Proofs.Credentials
import NamedStores.Proofs.Url.Path

namespace NamedStores

/-! ## Where a URL leads -/

/-- A URL that leads where another does, by whatever path and with whatever credentials. -/
structure Url.LeadsTo (u v : Url) : Prop where
  scheme : v.scheme = u.scheme
  host : v.authority.map (·.host) = u.authority.map (·.host)
  port : v.authority.bind (·.port) = u.authority.bind (·.port)
  fragment : v.fragment = u.fragment

namespace KeyValue

namespace Settings

/-- The credentials given, as pairs of a query. -/
def login (s : Settings) : List (String × String) :=
  (s.userName.map fun name => ("user", name)).toList ++
    (s.password.map fun secret => ("pass", secret)).toList

variable {s : Settings} {parsed url : Url}

/-! ## The pairs of a socket -/

theorem socketPairs_eq (s : Settings) (pairs : List (String × String)) :
    s.socketPairs pairs =
      pairs.filter (fun p => p.1 ∉ ["db", "user", "pass"]) ++
        ("db", toString s.database) :: s.login := by
  have others : (fun p : String × String => decide (p.1 ∉ ["db", "user", "pass"])) =
      fun p => p.1 ≠ "db" && p.1 ≠ "user" && p.1 ≠ "pass" := by
    funext p
    simp [Bool.and_assoc]
  rw [socketPairs, login, others, List.append_assoc, List.append_assoc, List.singleton_append]

/-- Pairs that are in force stay as they are: what was put in is dropped and put in again. -/
theorem socketPairs_socketPairs (s : Settings) (pairs : List (String × String)) :
    s.socketPairs (s.socketPairs pairs) = s.socketPairs pairs := by
  have dropped : (("db", toString s.database) :: s.login).filter
      (fun p => p.1 ∉ ["db", "user", "pass"]) = [] := by
    rw [login]
    cases s.userName <;> cases s.password <;> simp
  rw [socketPairs_eq, socketPairs_eq, List.filter_append, dropped, List.filter_filter,
    List.append_nil]
  simp only [Bool.and_self]

/-! ## What stays -/

/-- The connection URL of a TCP address is the address with another path and, perhaps, other user
information. -/
theorem connectionUrl_of_tcp [Url.HostNames] {a : Authority}
    (h : parseAddress s.address = .ok parsed)
    (plain : isSocketScheme parsed.scheme = false) (authority : parsed.authority = some a)
    (built : s.connectionUrl = .ok url) :
    url = { parsed with
      path := '/' :: (toString s.database).toList
      authority := some (a.replaced s.userName s.password) } := by
  have put := (connectionUrl_credentials h plain).mp built
  rw [Url.withIndexPath_eq authority] at put
  exact Url.withCredentials?_eq (u := { parsed with path := '/' :: (toString s.database).toList })
    authority put

theorem connectionUrl_leadsTo [Url.HostNames] (h : parseAddress s.address = .ok parsed)
    (settled : parsed.Settled)
    (built : s.connectionUrl = .ok url) : parsed.LeadsTo url := by
  cases socket : isSocketScheme parsed.scheme with
  | true =>
    cases connectionUrl_socket h socket built
    exact ⟨rfl, rfl, rfl, rfl⟩
  | false =>
    obtain ⟨a, authority, -⟩ := settled.authority
    cases connectionUrl_of_tcp h socket authority built
    exact ⟨rfl, by rw [authority]; rfl, by rw [authority]; rfl, rfl⟩

/-! ## Built again -/

/-- The text of a connection URL, taken for an address, is read as that URL. -/
theorem parseAddress_connectionUrl [Url.HostNames] (h : parseAddress s.address = .ok parsed)
    (settled : parsed.Settled) (low : 0 ≤ s.database) (built : s.connectionUrl = .ok url) :
    parseAddress url.text = .ok url := by
  obtain ⟨read, supported⟩ := parseAddress_ok.mp h
  have whole (same : Url.readPath url.path = url.path) (hu : url.Settled)
      (known : isSupported url.scheme = true) : parseAddress url.text = .ok url := by
    rw [parseAddress_text hu known, same]
  cases socket : isSocketScheme parsed.scheme with
  | true =>
    cases connectionUrl_socket h socket built
    obtain ⟨a, authority, -⟩ := settled.authority
    have path : Url.readPath parsed.path = parsed.path :=
      Url.readPath_of_read read (by rw [authority]; rfl)
    exact whole path (settled.withQueryPairs _) supported
  | false =>
    obtain ⟨hu, scheme, path⟩ := connectionUrl_number h settled socket low built
    refine whole ?_ hu (scheme ▸ supported)
    rw [path, Url.readPath_number low]

/-- Building the URL again from its own text changes nothing. -/
theorem connectionUrl_again [Url.HostNames] (h : parseAddress s.address = .ok parsed)
    (settled : parsed.Settled)
    (low : 0 ≤ s.database) (built : s.connectionUrl = .ok url) :
    { s with address := url.text }.connectionUrl = .ok url := by
  have back : parseAddress { s with address := url.text }.address = .ok url :=
    parseAddress_connectionUrl h settled low built
  have scheme := (connectionUrl_leadsTo h settled built).scheme
  cases socket : isSocketScheme parsed.scheme with
  | true =>
    cases connectionUrl_socket h socket built
    have pairs : (parsed.withQueryPairs (s.socketPairs parsed.queryPairs)).queryPairs =
        s.socketPairs parsed.queryPairs := Form.ofQuery_toQuery _
    have same : { s with
        address := (parsed.withQueryPairs (s.socketPairs parsed.queryPairs)).text }.socketPairs =
          s.socketPairs := rfl
    rw [connectionUrl_of_socket back socket, pairs, same, socketPairs_socketPairs]
    rfl
  | false =>
    obtain ⟨a, authority, -⟩ := settled.authority
    have put := (connectionUrl_credentials h socket).mp built
    have indexed : url.withIndexPath s.database = url := by
      cases connectionUrl_of_tcp h socket authority built
      rw [Url.withIndexPath_eq rfl]
    refine (connectionUrl_credentials back (scheme ▸ socket)).mpr ?_
    rw [indexed]
    exact Url.withCredentials?_again (u := parsed.withIndexPath s.database) authority put

end Settings

/-- **The connection URL changes nothing but database and credentials, and is stable.** It leads
where the address does. That of a TCP address keeps its query and has the database for path; that
of a socket keeps its path and, in their order, the pairs of its query, but for those that name a
database or credentials, which come last and each at most once. Built again from its own text, it
is the same. -/
theorem connection_url_stable [Url.HostNames] {record : Record} {s : Settings}
    (accepted : Settings.usable record = .ok s) (documented : IsDocumented s.address) :
    ∃ parsed url, parseAddress s.address = .ok parsed ∧ s.connectionUrl = .ok url ∧
      parsed.LeadsTo url ∧
      (isSocketScheme parsed.scheme = false →
        url.query = parsed.query ∧ url.path = '/' :: (toString s.database).toList) ∧
      (isSocketScheme parsed.scheme = true →
        url.path = parsed.path ∧
          url.queryPairs = parsed.queryPairs.filter (fun p => p.1 ∉ ["db", "user", "pass"]) ++
            ("db", toString s.database) :: s.login) ∧
      { s with address := url.text }.connectionUrl = .ok url := by
  obtain ⟨read, url, built⟩ := Settings.usable_ok accepted
  obtain ⟨explicit, named, chosen, nonneg⟩ := Settings.ofRecord_ok read
  obtain ⟨parsed, address, -⟩ := addressDatabase_ok.mp chosen.found
  have low := (Settings.database_bounds chosen nonneg).1
  have settled := documented.settled address
  refine ⟨parsed, url, address, built, Settings.connectionUrl_leadsTo address settled built, ?_, ?_,
    Settings.connectionUrl_again address settled low built⟩
  · intro plain
    obtain ⟨a, authority, -⟩ := settled.authority
    cases Settings.connectionUrl_of_tcp address plain authority built
    exact ⟨rfl, rfl⟩
  · intro socket
    cases Settings.connectionUrl_socket address socket built
    rw [← Settings.socketPairs_eq]
    exact ⟨rfl, Form.ofQuery_toQuery _⟩

/-- A socket address with a key twice, and with a database and credentials between other pairs. -/
def crowdedRecord : Record := [
  ("address", .string "unix:///run/a.sock?tag=a+b&user=old&db=3&x=%C3%A4&db=4&tag=c%26d%25#top"),
  ("user_name", .string "ä&b")]

theorem crowded_socket_stays :
    ∃ s url, Settings.usable crowdedRecord = .ok s ∧ IsDocumented s.address ∧
      s.connectionUrl = .ok url ∧
      url.queryPairs = [("tag", "a b"), ("x", "ä"), ("tag", "c&d%"), ("db", "3"), ("user", "ä&b")] ∧
      url.text = "unix:///run/a.sock?tag=a+b&x=%C3%A4&tag=c%26d%25&db=3&user=%C3%A4%26b#top" ∧
      { s with address := url.text }.connectionUrl = .ok url := by
  have text : ((Settings.usable crowdedRecord).toOption.bind fun s =>
      s.connectionUrl.toOption.map fun url => (s.address, url.queryPairs, url.text)) =
      some ("unix:///run/a.sock?tag=a+b&user=old&db=3&x=%C3%A4&db=4&tag=c%26d%25#top",
        [("tag", "a b"), ("x", "ä"), ("tag", "c&d%"), ("db", "3"), ("user", "ä&b")],
        "unix:///run/a.sock?tag=a+b&x=%C3%A4&tag=c%26d%25&db=3&user=%C3%A4%26b#top") := by
    decide +kernel
  obtain ⟨s, found, rest⟩ := Option.bind_eq_some_iff.mp text
  obtain ⟨url, connects, shown⟩ := Option.map_eq_some_iff.mp rest
  have accepted := toOption_eq_some.mp found
  have address := (Prod.mk.inj shown).1
  have pairs := (Prod.mk.inj (Prod.mk.inj shown).2).1
  have written := (Prod.mk.inj (Prod.mk.inj shown).2).2
  have documented : IsDocumented s.address := by
    rw [address]
    exact .inr ⟨"unix".toList,
      "/run/a.sock?tag=a+b&user=old&db=3&x=%C3%A4&db=4&tag=c%26d%25#top".toList, by decide +kernel⟩
  obtain ⟨_, _, _, built, _, _, _, again⟩ := connection_url_stable accepted documented
  cases built.symm.trans (toOption_eq_some.mp connects)
  exact ⟨s, url, accepted, documented, built, pairs, written, again⟩

end KeyValue

end NamedStores
