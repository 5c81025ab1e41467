/-
The file a SQLite address names and the file its driver opens. The driver reads the text of the
connection string, not a URL: it takes away `sqlite:` as written, then `//`, and ends the file at
the first question mark. So an address that is kept as it is keeps its file exactly when its
scheme is written in small letters. One that is rewritten for credentials is read as a URL with a
host first, and then keeps its file only when there is nothing to replace in it.
-/
import NamedStores.Proofs.Sql.Rewriting
import NamedStores.Proofs.Url.Secret
import NamedStores.Sqlite.Address

namespace NamedStores

namespace Sql

/-! ## Files -/

/-- What stands behind `//`, or all where it does not stand. -/
def afterSlashes : List Char → List Char
  | '/' :: '/' :: cs => cs
  | cs => cs

theorem afterSlashes_eq {cs : List Char} (h : ¬ ['/', '/'] <+: cs) : afterSlashes cs = cs := by
  unfold afterSlashes
  split
  · rename_i more
    exact absurd (List.prefix_append ['/', '/'] more) h
  · rfl

/-- What stands before the first question mark, without the slashes. -/
def filePart (cs : List Char) : List Char :=
  (Split.cutOff '?' (afterSlashes cs)).1

/-- How an address of SQLite is to begin for its driver. -/
def driverScheme : List Char := "sqlite:".toList

/-- The file that the driver reads in a connection string. -/
def openedFile (text : String) : List Char :=
  filePart (if driverScheme.isPrefixOf text.toList then text.toList.drop driverScheme.length
    else text.toList)

/-- The file that an address names behind its scheme, in whatever case that is written. -/
def namedFile (address : String) : List Char :=
  filePart ((Split.cutOff ':' address.toList).2.getD [])

theorem openedFile_of_scheme {text : String} {rest : List Char}
    (h : text.toList = driverScheme ++ rest) : openedFile text = filePart rest := by
  have begins : driverScheme.isPrefixOf text.toList = true :=
    List.isPrefixOf_iff_prefix.mpr ⟨rest, h.symm⟩
  rw [openedFile, if_pos begins, h, List.drop_left]

theorem namedFile_of_colon {address : String} {written rest : List Char} (colon : ':' ∉ written)
    (h : address.toList = written ++ ':' :: rest) : namedFile address = filePart rest := by
  have cut : Split.cutOff ':' address.toList = (written, some rest) := by
    rw [h]
    exact Split.cutOff_joined colon (some rest)
  rw [namedFile, cut, Option.getD_some]

theorem length_filePart_le (cs : List Char) :
    (filePart cs).length ≤ (Split.cutOff '?' cs).1.length := by
  unfold filePart afterSlashes
  split
  · rename_i more
    have first := Split.cutOff_cons (c := '?') (d := '/') (by decide)
    rw [first, first]
    exact Nat.le_add_right _ 2
  · exact Nat.le_refl _

/-- **An address that is kept as it is keeps its file exactly when its scheme is written in small
letters.** -/
theorem openedFile_eq_iff {address : String} (h : Product.ofAddress? address = some .sqlite) :
    openedFile address = namedFile address ↔ driverScheme <+: address.toList := by
  obtain ⟨written, rest, parts, known⟩ := Product.written_of_product h
  have named := namedFile_of_colon (Product.written_plain known (by decide)) parts
  constructor
  · intro same
    by_cases begins : driverScheme <+: address.toList
    · exact begins
    · -- Read as a file the scheme is part of its name, which is longer then.
      have whole : openedFile address = filePart address.toList := by
        rw [openedFile, if_neg (mt List.isPrefixOf_iff_prefix.mp begins)]
      have unslashed : afterSlashes address.toList = address.toList := by
        refine afterSlashes_eq fun slashes => ?_
        obtain ⟨more, begins⟩ := slashes
        have first : '/' ∈ (written ++ ':' :: rest).head? := by
          rw [← parts, ← begins]
          rfl
        have slash := Product.written_plain known (c := '/') (by decide)
        cases written with
        | nil => exact absurd known (by decide)
        | cons d written =>
          cases first
          exact slash List.mem_cons_self
      have question : '?' ∉ written ++ [':'] := by
        simpa using Product.written_plain known (c := '?') (by decide)
      have longer := length_filePart_le rest
      rw [whole, named, filePart, unslashed, parts, List.append_cons,
        Split.cutOff_append question] at same
      have sizes := congrArg List.length same
      simp only [List.length_append, List.length_cons] at sizes
      omega
  · rintro ⟨more, begins⟩
    have text : address.toList = "sqlite".toList ++ ':' :: more := begins.symm
    rw [openedFile_of_scheme begins.symm, namedFile_of_colon (by decide) text]

end Sql

/-! ## The driver -/

namespace Sqlite.Address

theorem trimStart_kept {word cs : List Char} (h : ¬ word <+: cs) (fuel : Nat) :
    trimStart word fuel cs = cs := by
  cases fuel with
  | zero => rfl
  | succ fuel => rw [trimStart, if_neg (mt List.isPrefixOf_iff_prefix.mp h)]

theorem trimStart_once {c : Char} {word rest : List Char} (h : ¬ (c :: word) <+: rest) :
    trimStart (c :: word) ((c :: word) ++ rest).length ((c :: word) ++ rest) = rest := by
  have begins : (c :: word).isPrefixOf ((c :: word) ++ rest) = true :=
    List.isPrefixOf_iff_prefix.mpr (List.prefix_append _ _)
  have steps : ((c :: word) ++ rest).length = (word ++ rest).length + 1 := rfl
  rw [steps, trimStart, if_pos begins, List.drop_left, trimStart_kept h]

/-- Parameters do not change the file. -/
theorem withParameter_file {a b : Address} {pair : String × String}
    (h : a.withParameter pair = .ok b) : b.file = a.file := by
  obtain ⟨key, value⟩ := pair
  simp only [withParameter] at h
  split at h
  all_goals
    cases h
    try rfl

theorem parameters_file {pairs : List (String × String)} {a b : Address}
    (h : pairs.foldlM withParameter a = .ok b) : b.file = a.file := by
  induction pairs generalizing a with
  | nil =>
    cases h
    rfl
  | cons pair pairs ih =>
    rw [List.foldlM_cons] at h
    cases first : a.withParameter pair with
    | error e => rw [first] at h; cases h
    | ok c =>
      rw [first] at h
      rw [ih h, withParameter_file first]

/-- Where the scheme is written once, it and the slashes behind it are taken away. -/
theorem trimStart_scheme {rest : List Char}
    (once : ¬ Sql.driverScheme <+: Sql.afterSlashes rest) {cs : List Char}
    (begins : cs = Sql.driverScheme ++ rest) : trimStart "sqlite:".toList cs.length
      (trimStart "sqlite://".toList cs.length cs) = Sql.afterSlashes rest := by
  have longer : Sql.driverScheme <+: "sqlite://".toList := ⟨['/', '/'], by decide⟩
  by_cases slashes : ['/', '/'] <+: rest
  · obtain ⟨more, rfl⟩ := slashes
    have whole : cs = "sqlite://".toList ++ more := begins
    have again : ¬ "sqlite://".toList <+: more := fun found => once (longer.trans found)
    rw [whole]
    exact (congrArg _ (trimStart_once again)).trans (trimStart_kept once _)
  · have kept := Sql.afterSlashes_eq slashes
    have unslashed : ¬ "sqlite://".toList <+: cs := by
      rintro ⟨more, whole⟩
      have parts : Sql.driverScheme ++ (['/', '/'] ++ more) = Sql.driverScheme ++ rest :=
        whole.trans begins
      exact slashes ⟨more, List.append_cancel_left parts⟩
    rw [trimStart_kept unslashed, begins, kept]
    rw [kept] at once
    exact trimStart_once once

/-- **The driver opens the file that is read of the connection string**, where the scheme is
written once: `:memory:` is no file, and the name of any other is decoded. -/
theorem ofText_file {text : String} {rest : List Char} {a : Address}
    (begins : text.toList = Sql.driverScheme ++ rest)
    (once : ¬ Sql.driverScheme <+: Sql.afterSlashes rest) (h : ofText text = .ok a) :
    a.file = if Sql.openedFile text = ":memory:".toList then none
      else some (Utf8.toStringLossy (Percent.decode (Sql.openedFile text))) := by
  rw [ofText] at h
  simp only [trimStart_scheme once begins] at h
  rw [parameters_file h, Sql.openedFile_of_scheme begins, Sql.filePart]
  simp only [decide_eq_true_eq]

end Sqlite.Address

namespace Url

/-! ## Files of URLs -/

variable {u v : Url} {a b : Authority}

/-- What follows an authority begins where an authority ends. -/
theorem head?_behind (h : IsPath u.path) : ∀ c ∈ u.behind.head?, endsAuthority c = true := by
  intro c hc
  rcases Split.head?_joined hc with front | hash
  · rcases Split.head?_joined front with path | question
    · rw [h.slash c path]
      decide
    · rw [question]
      decide
  · rw [hash]
    decide

/-- The file that the driver reads in the text of a URL of SQLite begins with the authority. -/
theorem openedFile_text (h : v.Settled) (scheme : v.scheme = "sqlite".toList)
    (authority : v.authority = some b) : ∃ tail, Sql.openedFile v.text = b.chars ++ tail ∧
      (∀ c ∈ tail.head?, endsAuthority c = true) ∧ Visible (b.chars ++ tail) := by
  have chars := chars_eq_behind authority h.unguarded
  have text : v.text.toList = Sql.driverScheme ++ '/' :: '/' :: (b.chars ++ v.behind) := by
    rw [Url.text, String.toList_ofList, chars, scheme]
    rfl
  have question : '?' ∉ b.chars := fun hc =>
    (chars_plain (h.of_authority authority) hc).2.2.1 rfl
  have file : Sql.openedFile v.text = (Split.cutOff '?' (b.chars ++ v.behind)).1 :=
    Sql.openedFile_of_scheme text
  refine ⟨(Split.cutOff '?' v.behind).1, ?_, ?_, ?_⟩
  · rw [file, Split.cutOff_append question]
  · intro c hc
    exact head?_behind h.path c (Split.head?_cutOff hc).1
  · have all := h.visible
    rw [chars] at all
    intro c hc
    refine all c (List.mem_append_right _ ?_)
    rcases List.mem_append.mp hc with inside | later
    · exact List.mem_append_left _ inside
    · exact List.mem_append_right _ (Split.mem_cutOff later)

/-- Of a text that begins with a visible character once blanks behind it are dropped, the first
character is that one or one that was dropped. -/
theorem cons_of_ended {cs rest : List Char} {c : Char} (h : ended cs = c :: rest) :
    ∃ d ds, cs = d :: ds ∧ (0x20 < d.toNat → d = c ∧ ended ds = rest) := by
  cases cs with
  | nil => cases h
  | cons d ds =>
    refine ⟨d, ds, rfl, fun visible => ?_⟩
    rw [ended_cons visible] at h
    exact List.cons.inj h

/-- In a file that is visible text every character up to its end is visible. -/
theorem visible_of_file (front : List Char) {rest : List Char} {c : Char} (question : '?' ∉ front)
    (unslashed : ¬ ['/', '/'] <+: front ++ c :: rest)
    (h : Visible (Sql.filePart (front ++ c :: rest))) : 0x20 < c.toNat := by
  by_cases ends : c = '?'
  · rw [ends]
    decide
  · rw [Sql.filePart, Sql.afterSlashes_eq unslashed, Split.cutOff_append question,
      Split.cutOff_cons ends] at h
    exact h c (List.mem_append_right _ List.mem_cons_self)

/-- Where the slashes of an authority are read and the file is visible text, they are written. -/
theorem slashes_written {rest after : List Char} (h : ended rest = '/' :: '/' :: after)
    (visible : Visible (Sql.filePart rest)) : ∃ more, rest = '/' :: '/' :: more := by
  by_cases begins : ['/', '/'] <+: rest
  · obtain ⟨more, whole⟩ := begins
    exact ⟨more, whole.symm⟩
  · obtain ⟨c, cs, rfl, first⟩ := cons_of_ended h
    obtain ⟨rfl, behind⟩ := first (visible_of_file [] List.not_mem_nil begins visible)
    obtain ⟨d, ds, rfl, second⟩ := cons_of_ended behind
    obtain ⟨rfl, -⟩ := second (visible_of_file ['/'] (by decide) begins visible)
    exact absurd (List.prefix_append ['/', '/'] ds) begins

/-- An authority that stands in a text as it is written is the one that is read there. -/
theorem authority_written {back more : List Char} {isFollowed : Bool} (hb : b.Settled)
    (stopped : ∀ c ∈ back.head?, endsAuthority c = true)
    (read : readAuthority (Split.breakAt endsAuthority (ended (b.chars ++ back))).1 isFollowed =
      .ok (a, more)) : a = b := by
  have visible : Visible b.chars := fun c hc => (chars_plain hb hc).1
  have passed : ∀ c ∈ b.chars, endsAuthority c = false := by
    intro c hc
    obtain ⟨-, slash, question, hash⟩ := chars_plain hb hc
    simp [endsAuthority, slash, question, hash]
  have located : (Split.breakAt endsAuthority (ended (b.chars ++ back))).1 = b.chars := by
    rcases breakAt_ended passed stopped with whole | cut
    · rw [whole, ended_visible visible]
    · rw [cut, unbroken_visible visible]
  rw [located, readAuthority_chars hb] at read
  cases read
  rfl

/-- **Where the driver finds the file an address names, nothing was replaced in it.** -/
theorem replaced_of_openedFile [HostNames] {address : String} {userName password : Option String}
    (product : Sql.Product.ofAddress? address = some .sqlite) (parsed : ofText address = .ok u)
    (authority : u.authority = some a) (put : u.withCredentials? userName password = some v)
    (same : Sql.openedFile v.text = Sql.namedFile address) : a.replaced userName password = a := by
  have carries : u.authority.isSome = true := by rw [authority]; rfl
  have settled := ofChars_settled parsed carries
  have hv := (settled.withCredentials? put).1
  have changed : v.authority = some (a.replaced userName password) := by
    rw [withCredentials?_eq authority put]
  have hb := hv.of_authority changed
  obtain ⟨written, rest, parts, known⟩ := Sql.Product.written_of_product product
  have colon := Sql.Product.written_plain known (c := ':') (by decide)
  rw [ofText, parts] at parsed
  have scheme : v.scheme = "sqlite".toList := by
    rw [withCredentials?_scheme put, Sql.Product.scheme_read known parsed]
    simpa [Sql.Product.schemes] using known
  obtain ⟨tail, file, stopped, visible⟩ := openedFile_text hv scheme changed
  rw [file, Sql.namedFile_of_colon colon parts] at same
  obtain ⟨after, split⟩ := slashes_of_authority parsed carries
  rw [clean_middle (by decide), begun_visible (Sql.Product.written_visible known)] at split
  -- The file is visible text, so it stands right behind the slashes as the driver reads it.
  obtain ⟨more, rfl⟩ := slashes_written (splitScheme?_colon colon split).2.symm (same ▸ visible)
  have cut : Split.cutOff '?' more = ((a.replaced userName password).chars ++ tail,
      (Split.cutOff '?' more).2) := Prod.ext same.symm rfl
  have text : more = (a.replaced userName password).chars ++
      Split.joined '?' tail (Split.cutOff '?' more).2 := by
    have whole := (Split.cutOff_cases cut).1
    rwa [Split.joined_append] at whole
  have ends : ∀ c ∈ (Split.joined '?' tail (Split.cutOff '?' more).2).head?,
      endsAuthority c = true := by
    intro c hc
    rcases Split.head?_joined hc with first | question
    · exact stopped c first
    · rw [question]
      decide
  obtain ⟨b, _, _, found, read⟩ := authority_located parsed colon settled.nonweb
  rw [text] at read
  cases authority_written hb ends read
  exact Option.some.inj (found.symm.trans authority)

end Url

namespace Sql.Settings

/-- **When an accepted SQLite record opens the file its address names.** Without credentials it
does exactly when the scheme is written in small letters; with credentials exactly when the
address carries those already and its text as a URL names the same file. Where the scheme is written
once, the driver opens the file that is read of the settings. -/
theorem sqlite_file_opened [Url.HostNames] {record : Record} {s : Settings}
    (accepted : ofRecord record = .ok s)
    (sqlite : s.product = .sqlite) :
    ∃ address, record.requiredText "address" = .ok address ∧
      (s.userName = none → s.password = none → s.address = address ∧
        (openedFile s.address = namedFile address ↔ driverScheme <+: address.toList)) ∧
      (s.userName.isSome = true ∨ s.password.isSome = true →
        ∃ u a, Url.ofText address = .ok u ∧ u.authority = some a ∧
          (openedFile s.address = namedFile address ↔
            a.replaced s.userName s.password = a ∧ openedFile u.text = namedFile address)) ∧
      ∀ rest opened, s.address.toList = driverScheme ++ rest →
        ¬ driverScheme <+: afterSlashes rest → Sqlite.Address.ofText s.address = .ok opened →
        opened.file = if openedFile s.address = ":memory:".toList then none
          else some (Utf8.toStringLossy (Percent.decode (openedFile s.address))) := by
  obtain ⟨address, read⟩ := ofRecord_readFrom accepted
  have product : Product.ofAddress? address = some .sqlite := by rw [read.product, sqlite]
  refine ⟨address, read.written, fun noName noPassword => ?_, fun given => ?_,
    fun rest opened => Sqlite.Address.ofText_file⟩
  · have kept := read.kept noName noPassword
    rw [kept]
    exact ⟨rfl, openedFile_eq_iff product⟩
  · obtain ⟨u, v, parsed, put, text⟩ := withCredentials_ok (read.carried given)
    obtain ⟨a, authority⟩ := Option.isSome_iff_exists.mp (Url.authority_of_withCredentials? given put)
    have replaced := Url.withCredentials?_eq authority put
    refine ⟨u, a, parsed, authority, ?_⟩
    rw [text]
    constructor
    · intro same
      have unchanged := Url.replaced_of_openedFile product parsed authority put same
      rw [unchanged, ← authority] at replaced
      rw [replaced] at same
      exact ⟨unchanged, same⟩
    · rintro ⟨unchanged, same⟩
      rw [unchanged, ← authority] at replaced
      rw [replaced]
      exact same

/-- A record of a file, with the password if one is given. -/
def fileRecord (address : String) (password : Option String) : Record :=
  ("address", .string address) :: (password.map fun p => ("password", .string p)).toList

theorem password_moves_file :
    (∃ s, ofRecord (fileRecord "sqlite://data.db" none) = .ok s ∧
      openedFile s.address = "data.db".toList) ∧
    ∃ s, ofRecord (fileRecord "sqlite://data.db" (some "x")) = .ok s ∧
      openedFile s.address ≠ "data.db".toList := by
  have named : namedFile "sqlite://data.db" = "data.db".toList := by decide +kernel
  constructor
  · obtain ⟨s, accepted, seen⟩ := exists_accepted (fileRecord "sqlite://data.db" none)
      (fun s => (s.product, s.userName, s.password)) (x := (.sqlite, none, none)) (by decide +kernel)
    simp only [Prod.mk.injEq] at seen
    obtain ⟨address, written, kept, -⟩ := sqlite_file_opened accepted seen.1
    cases written
    obtain ⟨-, opened⟩ := kept seen.2.1 seen.2.2
    exact ⟨s, accepted, (opened.mpr ⟨"//data.db".toList, by decide +kernel⟩).trans named⟩
  · obtain ⟨s, accepted, seen⟩ := exists_accepted (fileRecord "sqlite://data.db" (some "x"))
      (fun s => (s.product, s.password)) (x := (.sqlite, some "x")) (by decide +kernel)
    simp only [Prod.mk.injEq] at seen
    obtain ⟨address, written, -, given, -⟩ := sqlite_file_opened accepted seen.1
    cases written
    obtain ⟨u, a, parsed, authority, opened⟩ := given (.inr (by rw [seen.2]; rfl))
    have none_there : (Url.ofText "sqlite://data.db").toOption.bind (fun u => u.authority.bind
        (·.password)) = none := by decide +kernel
    have without : a.password = none := by
      rw [parsed] at none_there
      simpa [Except.toOption, authority] using none_there
    refine ⟨s, accepted, fun same => ?_⟩
    have unchanged := congrArg Authority.password (opened.mp (same.trans named.symm)).1
    rw [seen.2, without] at unchanged
    cases unchanged

/-- A scheme in capital letters is accepted, and is part of the file's name for the driver. -/
theorem capital_scheme_moves_file :
    ¬ ∀ record s address, ofRecord record = .ok s → s.product = .sqlite →
      record.requiredText "address" = .ok address → openedFile s.address = namedFile address := by
  intro opened
  obtain ⟨s, accepted, seen⟩ := exists_accepted (fileRecord "SQLITE:test.db" none)
    (fun s => (s.product, openedFile s.address)) (x := (.sqlite, "SQLITE:test.db".toList))
    (by decide +kernel)
  simp only [Prod.mk.injEq] at seen
  have same := opened _ s _ accepted seen.1 rfl
  rw [seen.2] at same
  exact absurd same (by decide +kernel)

end Sql.Settings

end NamedStores
