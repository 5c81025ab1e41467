/-
The connection URL of a Redis handle selects the database its record configures. The database is
written into the path or the query of the address, credentials are put in around it, and the
text of the whole is read again: since reading leaves an address settled, and each of these
changes keeps it so, the text reads back as the URL, and its database as the one written.
-/
import NamedStores.KeyValue.Settings
import NamedStores.Proofs.Record
import NamedStores.Proofs.Url.Change

namespace NamedStores.KeyValue

/-! ## Addresses -/

/-- The documented forms of an address: host and port alone, or a URL with `://` behind its
scheme. -/
def IsDocumented (address : String) : Prop :=
  Split.contains Mask.schemeEnd address.toList = false ∨
    ∃ scheme rest, ':' ∉ scheme ∧ address.toList = scheme ++ Mask.schemeEnd ++ rest

theorem isSupported_cases {scheme : List Char} (h : isSupported scheme = true) :
    scheme = "redis".toList ∨ scheme = "rediss".toList ∨ scheme = "unix".toList ∨
      scheme = "redis+unix".toList := by
  simp only [isSupported, isSocketScheme, Bool.or_eq_true, decide_eq_true_eq, or_assoc] at h
  exact h

theorem nonweb_of_isSupported {scheme : List Char} (h : isSupported scheme = true) :
    scheme ∉ Url.webSchemes := by
  rcases isSupported_cases h with rfl | rfl | rfl | rfl <;> decide

/-- The text that is read for an address. -/
def addressText (address : String) : String :=
  if Split.contains Mask.schemeEnd address.toList then address else "redis://" ++ address

theorem parseAddress_ok [Url.HostNames] {address : String} {url : Url} :
    parseAddress address = .ok url ↔
      Url.ofText (addressText address) = .ok url ∧ isSupported url.scheme = true := by
  simp only [parseAddress]
  rw [← addressText]
  cases Url.ofText (addressText address) with
  | error flaw => exact ⟨(fun h => by cases h), (fun h => by cases h.1)⟩
  | ok found =>
    dsimp only
    constructor
    · intro h
      split at h
      · rename_i supported
        cases h
        exact ⟨rfl, supported⟩
      · cases h
    · rintro ⟨read, supported⟩
      cases read
      exact if_pos supported

/-- An address of a documented form has an authority. -/
theorem IsDocumented.settled [Url.HostNames] {address : String} {url : Url}
    (h : IsDocumented address)
    (parsed : parseAddress address = .ok url) : url.Settled := by
  obtain ⟨read, supported⟩ := parseAddress_ok.mp parsed
  have behind : ∃ scheme rest, ':' ∉ scheme ∧
      (addressText address).toList = scheme ++ ':' :: '/' :: '/' :: rest := by
    rcases h with plain | ⟨scheme, rest, colon, text⟩
    · refine ⟨"redis".toList, address.toList, by decide, ?_⟩
      rw [addressText, if_neg (by simp [plain]), String.toList_append]
      rfl
    · refine ⟨scheme, rest, colon, ?_⟩
      have found : Split.contains Mask.schemeEnd address.toList = true := by
        rw [text]
        exact Split.contains_iff.mpr ⟨scheme, rest, rfl⟩
      rw [addressText, if_pos found, text, List.append_assoc]
      rfl
  obtain ⟨scheme, rest, colon, text⟩ := behind
  rw [Url.ofText, text] at read
  exact Url.ofChars_settled read
    (Url.authority_of_schemeEnd read colon (nonweb_of_isSupported supported))

/-! ## The database an address names -/

/-- A URL names a database by a text: a socket's in its first `db` pair, any other in its path,
which is all of it but the slashes around it. -/
inductive NamesBy (url : Url) : String → Prop where
  | pair (before after : List (String × String)) (text : String) :
      isSocketScheme url.scheme = true → url.queryPairs = before ++ ("db", text) :: after →
      (∀ p ∈ before, p.1 ≠ "db") → NamesBy url text
  | path (before after : Nat) (name : List Char) :
      isSocketScheme url.scheme = false →
      url.path = List.replicate before '/' ++ name ++ List.replicate after '/' →
      name ≠ [] → name.head? ≠ some '/' → name.getLast? ≠ some '/' →
      NamesBy url (String.ofList name)

/-- The number a URL names a database by, if it names one. -/
def Names (url : Url) : Option Int → Prop
  | none => ∀ text, ¬ NamesBy url text
  | some n => 0 ≤ n ∧ ∃ text, NamesBy url text ∧ Integer.signed64? text.toList = some n

def isSlash (c : Char) : Bool := c = '/'

/-- A path without the slashes around it. -/
def trimmed (path : List Char) : List Char :=
  ((path.dropWhile isSlash).reverse.dropWhile isSlash).reverse

theorem eq_slashes_append (cs : List Char) :
    cs = List.replicate (cs.takeWhile isSlash).length '/' ++ cs.dropWhile isSlash := by
  have slashes : cs.takeWhile isSlash = List.replicate (cs.takeWhile isSlash).length '/' := by
    refine List.eq_replicate_of_mem fun c hc => ?_
    simpa [isSlash] using List.mem_takeWhile_imp hc
  rw [← slashes, List.takeWhile_append_dropWhile]

theorem head?_dropWhile_isSlash (cs : List Char) : (cs.dropWhile isSlash).head? ≠ some '/' := by
  intro h
  have stopped := List.head?_dropWhile_not isSlash cs
  rw [h] at stopped
  cases stopped

theorem dropWhile_isSlash (k : Nat) {cs : List Char} (h : cs.head? ≠ some '/') :
    (List.replicate k '/' ++ cs).dropWhile isSlash = cs := by
  rw [List.dropWhile_append_of_pos fun c hc => by rw [List.eq_of_mem_replicate hc]; rfl]
  cases cs with
  | nil => rfl
  | cons c cs =>
    have other : c ≠ '/' := fun e => h (congrArg some e)
    exact List.dropWhile_cons_of_neg (by simpa [isSlash] using other)

theorem trimmed_eq {path name : List Char} (nonempty : name ≠ []) :
    trimmed path = name ↔ ∃ before after,
      path = List.replicate before '/' ++ name ++ List.replicate after '/' ∧
        name.head? ≠ some '/' ∧ name.getLast? ≠ some '/' := by
  constructor
  · rintro rfl
    have front := eq_slashes_append path
    have back := eq_slashes_append (path.dropWhile isSlash).reverse
    have middle : path.dropWhile isSlash = trimmed path ++
        List.replicate ((path.dropWhile isSlash).reverse.takeWhile isSlash).length '/' := by
      have turned := congrArg List.reverse back
      rwa [List.reverse_reverse, List.reverse_append, List.reverse_replicate] at turned
    refine ⟨(path.takeWhile isSlash).length,
      ((path.dropWhile isSlash).reverse.takeWhile isSlash).length, ?_, ?_, ?_⟩
    · rw [List.append_assoc, ← middle]
      exact front
    · intro h
      refine head?_dropWhile_isSlash path ?_
      rw [middle, List.head?_append, h]
      rfl
    · rw [trimmed, List.getLast?_reverse]
      exact head?_dropWhile_isSlash _
  · rintro ⟨before, after, rfl, first, last⟩
    have start : (name ++ List.replicate after '/').head? ≠ some '/' := by
      rw [List.head?_append]
      cases name with
      | nil => exact absurd rfl nonempty
      | cons c cs => exact first
    have finish : name.reverse.head? ≠ some '/' := by rwa [List.head?_reverse]
    rw [trimmed, List.append_assoc, dropWhile_isSlash before start, List.reverse_append,
      List.reverse_replicate, dropWhile_isSlash after finish, List.reverse_reverse]

theorem databaseText?_eq_some {url : Url} {text : String} :
    databaseText? url = some text ↔ NamesBy url text := by
  rw [databaseText?]
  cases socket : isSocketScheme url.scheme with
  | true =>
    rw [if_pos rfl, Option.map_eq_some_iff]
    constructor
    · rintro ⟨⟨key, value⟩, found, rfl⟩
      obtain ⟨named, before, after, parts, others⟩ := List.find?_eq_some_iff_append.mp found
      have key_db : key = "db" := by simpa using named
      subst key_db
      exact .pair before after value socket parts fun p hp => by simpa using others p hp
    · rintro (⟨before, after, _, -, parts, others⟩ | ⟨_, _, _, plain, _⟩)
      · refine ⟨("db", text), List.find?_eq_some_iff_append.mpr ⟨by simp, before, after, parts,
          fun p hp => by simpa using others p hp⟩, rfl⟩
      · rw [socket] at plain
        cases plain
  | false =>
    have unfolded : (if false = true then (url.queryPairs.find? (·.1 = "db")).map (·.2) else
        if (trimmed url.path).isEmpty then none else some (String.ofList (trimmed url.path))) =
        some text ↔ trimmed url.path ≠ [] ∧ String.ofList (trimmed url.path) = text := by
      rw [if_neg (by decide)]
      split
      · rename_i empty
        simp [List.isEmpty_iff.mp empty]
      · rename_i nonempty
        simp [List.isEmpty_iff.not.mp nonempty]
    refine unfolded.trans ⟨?_, ?_⟩
    · rintro ⟨nonempty, rfl⟩
      obtain ⟨before, after, parts, first, last⟩ := (trimmed_eq nonempty).mp rfl
      exact .path before after _ socket parts nonempty first last
    · rintro (⟨_, _, _, plain, _⟩ | ⟨before, after, name, -, parts, nonempty, first, last⟩)
      · rw [socket] at plain
        cases plain
      · have same := (trimmed_eq nonempty).mpr ⟨before, after, parts, first, last⟩
        exact ⟨same ▸ nonempty, by rw [same]⟩

/-- The number that a text names, if it is one that databases can have. -/
def number? (text : String) : Option Int :=
  (Integer.signed64? text.toList).filter (0 ≤ ·)

theorem number?_eq_some {text : String} {n : Int} :
    number? text = some n ↔ 0 ≤ n ∧ Integer.signed64? text.toList = some n := by
  rw [number?, Option.filter_eq_some_iff, decide_eq_true_eq, and_comm]

theorem names_none {url : Url} : Names url none ↔ databaseText? url = none := by
  rw [Option.eq_none_iff_forall_ne_some]
  exact forall_congr' fun text => not_congr databaseText?_eq_some.symm

theorem names_some {url : Url} {n : Int} :
    Names url (some n) ↔ ∃ text, databaseText? url = some text ∧ number? text = some n := by
  constructor
  · rintro ⟨low, text, named, read⟩
    exact ⟨text, databaseText?_eq_some.mpr named, number?_eq_some.mpr ⟨low, read⟩⟩
  · rintro ⟨text, found, value⟩
    obtain ⟨low, read⟩ := number?_eq_some.mp value
    exact ⟨low, text, databaseText?_eq_some.mp found, read⟩

theorem addressDatabase_of_url [Url.HostNames] {address : String} {url : Url}
    (parsed : parseAddress address = .ok url) (named : Option Int) :
    addressDatabase address = .ok named ↔ Names url named := by
  simp only [addressDatabase, parsed, bind, Except.bind]
  cases found : databaseText? url with
  | none =>
    cases named with
    | none => exact iff_of_true rfl (names_none.mpr found)
    | some n =>
      refine iff_of_false (fun h => by cases h) fun h => ?_
      obtain ⟨text, other, -⟩ := names_some.mp h
      cases found.symm.trans other
  | some text =>
    dsimp only
    rw [← number?]
    cases value : number? text with
    | none =>
      refine iff_of_false (fun h => by cases h) fun h => ?_
      cases named with
      | none => cases found.symm.trans (names_none.mp h)
      | some n =>
        obtain ⟨text', same, read⟩ := names_some.mp h
        cases found.symm.trans same
        cases value.symm.trans read
    | some m =>
      cases named with
      | none =>
        exact iff_of_false (fun h => by cases h) fun h => by cases found.symm.trans (names_none.mp h)
      | some n =>
        rw [names_some]
        constructor
        · intro h
          cases h
          exact ⟨text, found, value⟩
        · rintro ⟨text', same, read⟩
          cases found.symm.trans same
          cases value.symm.trans read
          rfl

theorem addressDatabase_ok [Url.HostNames] {address : String} {named : Option Int} :
    addressDatabase address = .ok named ↔
      ∃ url, parseAddress address = .ok url ∧ Names url named := by
  constructor
  · intro h
    cases parsed : parseAddress address with
    | error reason =>
      rw [addressDatabase, parsed] at h
      cases h
    | ok url => exact ⟨url, rfl, (addressDatabase_of_url parsed named).mp h⟩
  · rintro ⟨url, parsed, named⟩
    exact (addressDatabase_of_url parsed _).mpr named

theorem Names.bounds {url : Url} {n : Int} (h : Names url (some n)) :
    0 ≤ n ∧ n < 0x8000000000000000 := by
  obtain ⟨low, text, -, read⟩ := h
  exact ⟨low, (Integer.signed64?_bounds read).2⟩

/-! ## Settings -/

/-- What settings say about the database: which the record gives, which the address names, and
which is in force. -/
structure Chosen [Url.HostNames] (record : Record) (s : Settings)
    (explicit named : Option Int) : Prop where
  address : record.requiredText "address" = .ok s.address
  given : record.optionalInteger "database_index" = .ok explicit
  found : addressDatabase s.address = .ok named
  database : s.database = (explicit.or named).getD 0
  agree : ∀ i ∈ explicit, ∀ j ∈ named, i = j

namespace Settings

/-- What accepted settings hold of the record. -/
theorem ofRecord_cases [Url.HostNames] {record : Record} {s : Settings}
    (h : ofRecord record = .ok s) :
    ∃ explicit named, Chosen record s explicit named ∧ (∀ i ∈ explicit, 0 ≤ i) ∧
      s.userName = record.optionalText "user_name" ∧
      s.password = record.optionalText "password" := by
  rw [ofRecord] at h
  cases address : record.requiredText "address" with
  | error d => rw [address] at h; cases h
  | ok text =>
    cases index : record.optionalInteger "database_index" with
    | error d => rw [address, index] at h; cases h
    | ok explicit =>
      simp only [address, index, bind, Except.bind] at h
      split at h
      · cases h
      · rename_i low
        cases within : addressDatabase text with
        | error reason => rw [within] at h; cases h
        | ok named =>
          have mapped : (addressDatabase text).mapError (fun reason =>
              (⟨"address field", reason⟩ : Defect)) = .ok named := by rw [within]; rfl
          simp only [mapped] at h
          have nonneg : ∀ i ∈ explicit, 0 ≤ i := by
            intro i hi
            rw [Option.mem_def.mp hi] at low
            simpa using low
          have chosen : s = ⟨text, record.optionalText "user_name",
              record.optionalText "password", (explicit.or named).getD 0⟩ ∧
              ∀ i ∈ explicit, ∀ j ∈ named, i = j := by
            cases explicit with
            | none => cases named <;> (cases h; exact ⟨rfl, by simp⟩)
            | some i =>
              cases named with
              | none => cases h; exact ⟨rfl, by simp⟩
              | some j =>
                dsimp only at h
                split at h
                · rename_i same
                  cases h
                  exact ⟨rfl, by simp [same]⟩
                · cases h
          obtain ⟨rfl, agree⟩ := chosen
          exact ⟨explicit, named, ⟨address, index, within, rfl, agree⟩, nonneg, rfl, rfl⟩

theorem ofRecord_ok [Url.HostNames] {record : Record} {s : Settings} (h : ofRecord record = .ok s) :
    ∃ explicit named, Chosen record s explicit named ∧ ∀ i ∈ explicit, 0 ≤ i := by
  obtain ⟨explicit, named, chosen, nonneg, -⟩ := ofRecord_cases h
  exact ⟨explicit, named, chosen, nonneg⟩

theorem usable_ok [Url.HostNames] {record : Record} {s : Settings} (h : usable record = .ok s) :
    ofRecord record = .ok s ∧ ∃ url, s.connectionUrl = .ok url := by
  rw [usable] at h
  cases read : ofRecord record with
  | error d => rw [read] at h; cases h
  | ok found =>
    simp only [read, bind, Except.bind] at h
    split at h
    · rename_i url built
      cases h
      exact ⟨rfl, url, built⟩
    · cases h

/-- The database in force is one that databases can have. -/
theorem database_bounds [Url.HostNames] {record : Record} {s : Settings}
    {explicit named : Option Int}
    (h : Chosen record s explicit named) (nonneg : ∀ i ∈ explicit, 0 ≤ i) :
    0 ≤ s.database ∧ s.database < 0x8000000000000000 := by
  rw [h.database]
  cases explicit with
  | some i =>
    have fits := Record.fits64_of_optionalInteger h.given
    have low := nonneg i rfl
    simp only [Integer.fits64, Bool.and_eq_true, decide_eq_true_eq] at fits
    exact ⟨low, fits.2⟩
  | none =>
    cases named with
    | some j =>
      obtain ⟨url, -, names⟩ := addressDatabase_ok.mp h.found
      exact names.bounds
    | none => exact ⟨by decide, by decide⟩

end Settings

/-! ## The connection URL -/

namespace Settings

variable {s : Settings} {parsed url : Url}

theorem connectionUrl_of_socket [Url.HostNames] (h : parseAddress s.address = .ok parsed)
    (socket : isSocketScheme parsed.scheme = true) :
    s.connectionUrl = .ok (parsed.withQueryPairs (s.socketPairs parsed.queryPairs)) := by
  simp only [connectionUrl, h, bind, Except.bind, if_pos socket]
  rfl

theorem connectionUrl_socket [Url.HostNames] (h : parseAddress s.address = .ok parsed)
    (socket : isSocketScheme parsed.scheme = true) (built : s.connectionUrl = .ok url) :
    url = parsed.withQueryPairs (s.socketPairs parsed.queryPairs) :=
  Except.ok.inj (built.symm.trans (connectionUrl_of_socket h socket))

/-- A URL with the user name of settings put in. -/
def withUser (s : Settings) (url : Url) : Except String Url :=
  match s.userName with
  | none => .ok url
  | some name =>
    match url.withUserName? name with
    | some url => .ok url
    | none => .error "Address cannot carry a user name"

/-- A URL with the password of settings put in. -/
def withSecret (s : Settings) (url : Url) : Except String Url :=
  match s.password with
  | none => .ok url
  | some secret =>
    match url.withPassword? secret with
    | some url => .ok url
    | none => .error "Address cannot carry a password"

theorem connectionUrl_plain [Url.HostNames] (h : parseAddress s.address = .ok parsed)
    (plain : isSocketScheme parsed.scheme = false) :
    s.connectionUrl = (s.withUser (parsed.withIndexPath s.database)).bind s.withSecret := by
  simp only [connectionUrl, h, bind, Except.bind, withUser]
  rw [if_neg (by simp [plain])]
  cases s.userName with
  | none => rfl
  | some name =>
    dsimp only
    cases (parsed.withIndexPath s.database).withUserName? name <;> rfl

/-- Putting the credentials in leaves a settled URL, its scheme and its path. -/
theorem withUser_keeps (h : parsed.Settled) (put : s.withUser parsed = .ok url) :
    url.Settled ∧ url.scheme = parsed.scheme ∧ url.path = parsed.path := by
  unfold withUser at put
  split at put
  · cases put
    exact ⟨h, rfl, rfl⟩
  · split at put
    · rename_i changed
      cases put
      exact h.withUserName? changed
    · cases put

theorem withSecret_keeps (h : parsed.Settled) (put : s.withSecret parsed = .ok url) :
    url.Settled ∧ url.scheme = parsed.scheme ∧ url.path = parsed.path := by
  unfold withSecret at put
  split at put
  · cases put
    exact ⟨h, rfl, rfl⟩
  · split at put
    · rename_i changed
      cases put
      exact h.withPassword? changed
    · cases put

/-- The connection URL of a TCP address has the database as its path. -/
theorem connectionUrl_number [Url.HostNames] (h : parseAddress s.address = .ok parsed)
    (settled : parsed.Settled)
    (plain : isSocketScheme parsed.scheme = false) (low : 0 ≤ s.database)
    (built : s.connectionUrl = .ok url) :
    url.Settled ∧ url.scheme = parsed.scheme ∧ url.path = '/' :: (toString s.database).toList := by
  obtain ⟨indexed, path⟩ := settled.withIndexPath low
  rw [connectionUrl_plain h plain] at built
  cases user : s.withUser (parsed.withIndexPath s.database) with
  | error reason => rw [user] at built; cases built
  | ok named =>
    rw [user] at built
    obtain ⟨hn, scheme, same⟩ := withUser_keeps indexed user
    obtain ⟨hu, scheme', same'⟩ := withSecret_keeps hn built
    exact ⟨hu, scheme'.trans scheme, (same'.trans same).trans path⟩

end Settings

/-! ## Reading it back -/

/-- The text of a settled URL is an address with that URL, but for the path. -/
theorem parseAddress_text [Url.HostNames] {url : Url} (h : url.Settled)
    (supported : isSupported url.scheme = true) :
    parseAddress url.text = .ok { url with path := Url.readPath url.path } := by
  have chars : url.text.toList = url.chars := String.toList_ofList
  have found : Split.contains Mask.schemeEnd url.text.toList = true := by
    obtain ⟨rest, text⟩ := h.schemeEnd
    have parts : url.chars = url.scheme ++ Mask.schemeEnd ++ rest := by
      rw [text, List.append_assoc]
      rfl
    rw [chars, parts]
    exact Split.contains_iff.mpr ⟨url.scheme, rest, rfl⟩
  refine parseAddress_ok.mpr ⟨?_, supported⟩
  rw [addressText, if_pos found, Url.ofText, chars, Url.ofChars_chars h]

theorem names_number {url : Url} {n : Int} (low : 0 ≤ n) (high : n < 0x8000000000000000)
    (named : databaseText? url = some (toString n)) : Names url (some n) :=
  names_some.mpr ⟨toString n, named,
    number?_eq_some.mpr ⟨low, Integer.signed64?_toString low high⟩⟩

/-- The first `db` pair of a socket's query is the one put in. -/
theorem find_socketPairs (s : Settings) (pairs : List (String × String)) :
    (s.socketPairs pairs).find? (·.1 = "db") = some ("db", toString s.database) := by
  have kept : (pairs.filter fun p => p.1 ≠ "db" && p.1 ≠ "user" && p.1 ≠ "pass").find?
      (·.1 = "db") = none := by
    refine List.find?_eq_none.mpr fun p hp => ?_
    have others := (List.mem_filter.mp hp).2
    simp only [Bool.and_eq_true, decide_eq_true_eq, ne_eq] at others ⊢
    exact others.1.1
  rw [Settings.socketPairs, List.find?_append, List.find?_append, List.find?_append, kept]
  rfl

theorem databaseText?_socket {url : Url} (socket : isSocketScheme url.scheme = true)
    (s : Settings) (pairs : List (String × String)) (path : List Char) :
    databaseText? { url.withQueryPairs (s.socketPairs pairs) with path := path } =
      some (toString s.database) := by
  have read : ({ url.withQueryPairs (s.socketPairs pairs) with path := path } : Url).queryPairs =
      s.socketPairs pairs := Form.ofQuery_toQuery _
  have scheme : isSocketScheme
      ({ url.withQueryPairs (s.socketPairs pairs) with path := path } : Url).scheme = true := socket
  rw [databaseText?, if_pos scheme, read, find_socketPairs]
  rfl

theorem databaseText?_number {url : Url} (plain : isSocketScheme url.scheme = false) {n : Int}
    (low : 0 ≤ n) (path : url.path = '/' :: (toString n).toList) :
    databaseText? url = some (toString n) := by
  have digits : ∀ c ∈ (toString n).toList, c ≠ '/' := by
    rw [Integer.toList_toString low]
    exact Integer.forall_mem_toDigits (by decide) n.toNat
  have nonempty : (toString n).toList ≠ [] := by
    rw [Integer.toList_toString low]
    exact Nat.toDigits_ne_nil
  have names : NamesBy url (String.ofList (toString n).toList) := by
    refine .path 1 0 _ plain (by simpa using path) nonempty (fun h => ?_) (fun h => ?_)
    · exact digits '/' (List.mem_of_mem_head? h) rfl
    · exact digits '/' (List.mem_of_getLast? h) rfl
  rw [String.ofList_toList] at names
  exact databaseText?_eq_some.mpr names

/-- **The connection URL selects the configured database.** Reading its text names the database in
force: the one of the record, else the one the address names, else 0, and where both name one
they agree. -/
theorem connection_url_selects_database [Url.HostNames] {record : Record} {s : Settings}
    (accepted : Settings.usable record = .ok s) (documented : IsDocumented s.address) :
    ∃ explicit named parsed url, Chosen record s explicit named ∧
      parseAddress s.address = .ok parsed ∧ Names parsed named ∧
      s.connectionUrl = .ok url ∧ addressDatabase url.text = .ok (some s.database) ∧
      0 ≤ s.database ∧ s.database < 0x8000000000000000 := by
  obtain ⟨read, url, built⟩ := Settings.usable_ok accepted
  obtain ⟨explicit, named, chosen, nonneg⟩ := Settings.ofRecord_ok read
  obtain ⟨parsed, address, names⟩ := addressDatabase_ok.mp chosen.found
  obtain ⟨low, high⟩ := Settings.database_bounds chosen nonneg
  have settled := documented.settled address
  have supported := (parseAddress_ok.mp address).2
  refine ⟨explicit, named, parsed, url, chosen, address, names, built, ?_, low, high⟩
  cases socket : isSocketScheme parsed.scheme with
  | true =>
    cases Settings.connectionUrl_socket address socket built
    have back := parseAddress_text (settled.withQueryPairs (s.socketPairs parsed.queryPairs))
      supported
    exact addressDatabase_ok.mpr ⟨_, back, names_number low high (databaseText?_socket socket s _ _)⟩
  | false =>
    obtain ⟨hu, scheme, path⟩ := Settings.connectionUrl_number address settled socket low built
    have back := parseAddress_text hu (scheme ▸ supported)
    rw [path, Url.readPath_number low] at back
    exact addressDatabase_ok.mpr ⟨_, back, names_number low high
      (databaseText?_number (scheme ▸ socket) low rfl)⟩

/-- A socket address with two `db` pairs, and a password to carry. -/
def socketRecord : Record := [
  ("address", .string "unix:///run/redis.sock?tls=no&db=07&db=9"),
  ("password", .string "p&q=")]

theorem socket_address_selects_first_pair :
    ∃ s url, Settings.usable socketRecord = .ok s ∧ IsDocumented s.address ∧
      s.connectionUrl = .ok url ∧
      url.text = "unix:///run/redis.sock?tls=no&db=7&pass=p%26q%3D" ∧
      addressDatabase url.text = .ok (some 7) := by
  have text : ((Settings.usable socketRecord).toOption.bind fun s =>
      s.connectionUrl.toOption.map fun url => (s.address, s.database, url.text)) =
      some ("unix:///run/redis.sock?tls=no&db=07&db=9", 7,
        "unix:///run/redis.sock?tls=no&db=7&pass=p%26q%3D") := by decide +kernel
  cases accepted : Settings.usable socketRecord with
  | error d => rw [accepted] at text; cases text
  | ok s =>
    rw [accepted] at text
    cases connects : s.connectionUrl with
    | error reason =>
      simp only [Except.toOption, Option.bind_some, connects, Option.map_none, reduceCtorEq] at text
    | ok url =>
      simp only [Except.toOption, Option.bind_some, connects, Option.map_some] at text
      have shown := Option.some.inj text
      have address := (Prod.mk.inj shown).1
      have database := (Prod.mk.inj (Prod.mk.inj shown).2).1
      have written := (Prod.mk.inj (Prod.mk.inj shown).2).2
      have documented : IsDocumented s.address := by
        rw [address]
        exact .inr ⟨"unix".toList, "/run/redis.sock?tls=no&db=07&db=9".toList, by decide +kernel⟩
      obtain ⟨_, _, _, built, _, _, _, same, back, _⟩ :=
        connection_url_selects_database accepted documented
      rw [connects] at same
      cases same
      rw [database] at back
      exact ⟨s, url, rfl, documented, connects, written, back⟩

end NamedStores.KeyValue
