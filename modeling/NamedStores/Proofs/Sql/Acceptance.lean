/-
Which records a database handle takes, and what it reports of the others. The address must be there
and begin as those of a product do, it must be able to carry credentials when the record gives some,
and three checks concern the options of the pool. An option counts when it is a whole number that
fits; whatever else stands in its field is passed over, and so is a user name or a password that is
no text.
-/
import NamedStores.Proofs.Checks
import NamedStores.Proofs.Credentials
import NamedStores.Proofs.Sql.Product

namespace NamedStores.Sql

/-! ## What a record says -/

section

variable (record : Record)

/-- The record gives an address. -/
def Addressed (address : String) : Prop :=
  record.get? "address" = some (.string address)

/-- The record gives a user name or a password. -/
def Credited : Prop :=
  ∃ text, record.get? "user_name" = some (.string text) ∨
    record.get? "password" = some (.string text)

/-- The record gives an option: a whole number below a bound. -/
def Gives (field : String) (bound n : Nat) : Prop :=
  record.get? field = some (.integer n) ∧ n < bound

/-! ## The checks -/

inductive Check where
  | address
  | product
  | credentials
  | connections
  | seconds
  | bounds
  deriving DecidableEq

def Holds [Url.HostNames] : Check → Prop
  | .address => ∃ address, Addressed record address
  | .product => ∀ address, Addressed record address → ∃ p, Product.Begins p address
  | .credentials => Credited record → ∀ address, Addressed record address →
      ∃ url a, Url.ofText address = .ok url ∧ url.authority = some a ∧ a.host ≠ []
  | .connections => ¬ Gives record "max_connections" 0x100000000 0
  | .seconds => ∀ n, Gives record "query_timeout_secs" 0x10000000000000000 n → 1 ≤ n ∧ n ≤ 300
  | .bounds => ∀ low high, Gives record "min_connections" 0x100000000 low →
      Gives record "max_connections" 0x100000000 high → low ≤ high

/-- What is reported of a record for a check that fails. -/
inductive Reported [Url.HostNames] : Check → Defect → Prop where
  | address : Reported .address ⟨"address field", "mandatory address field not exist"⟩
  | product (address masked : String) : Addressed record address → masked = Mask.hide address →
      Reported .product ⟨"address field", s!"unknown database type in address '{masked}'"⟩
  | url (address message : String) (flaw : Url.Flaw) : Addressed record address →
      Url.ofText address = .error flaw → message = flaw.message →
      Reported .credentials ⟨"user_name field", s!"Invalid address: {message}"⟩
  | host (address : String) (url : Url) : Addressed record address → Url.ofText address = .ok url →
      Reported .credentials ⟨"user_name field", "Address cannot carry credentials"⟩
  | connections : Reported .connections ⟨"pool options", "max_connections must be greater than 0"⟩
  | seconds : Reported .seconds ⟨"pool options", "query_timeout_secs must be between 1 and 300"⟩
  | bounds (low high : Nat) : Gives record "min_connections" 0x100000000 low →
      Gives record "max_connections" 0x100000000 high →
      Reported .bounds ⟨"pool options",
        s!"min_connections ({low}) cannot exceed max_connections ({high})"⟩

/-- The checks of a record, the first first. -/
def checks [Url.HostNames] : Checks Check where
  order := [.address, .product, .credentials, .connections, .seconds, .bounds]
  Holds := Holds record
  Reported := Reported record

end

/-! ## Each check -/

variable {record : Record}

theorem addressed_iff {address : String} :
    Addressed record address ↔ record.optionalText "address" = some address :=
  Record.optionalText_eq_some.symm

theorem credited_iff : Credited record ↔ ((record.optionalText "user_name").isSome ||
    (record.optionalText "password").isSome) = true := by
  simp only [Credited, Bool.or_eq_true, Option.isSome_iff_exists, Record.optionalText_eq_some,
    exists_or]

theorem address_checked [Url.HostNames] (record : Record) : (checks record).Checked .address
    (Addressed record) (record.requiredText "address") := by
  rw [Record.requiredText_eq]
  cases given : record.optionalText "address" with
  | some address =>
    have found := addressed_iff.mpr given
    exact .inl ⟨address, rfl, found, address, found⟩
  | none =>
    refine .inr ⟨_, rfl, .address, fun held => ?_⟩
    obtain ⟨address, found⟩ := held
    cases given.symm.trans (addressed_iff.mp found)

/-- The product of an address, which must have one. -/
def knownProduct (address : String) : Except Defect Product :=
  match Product.ofAddress? address with
  | some p => .ok p
  | none =>
    let masked := Mask.hide address
    .error ⟨"address field", s!"unknown database type in address '{masked}'"⟩

/-- A record has one address at most. -/
theorem Addressed.unique {address other : String} (given : Addressed record address)
    (also : Addressed record other) : other = address := by
  cases given.symm.trans also
  rfl

theorem product_checked [Url.HostNames] {address : String} (given : Addressed record address) :
    (checks record).Checked .product (fun _ => True) (knownProduct address) := by
  unfold knownProduct
  cases found : Product.ofAddress? address with
  | some p =>
    refine .inl ⟨p, rfl, trivial, fun other also => ?_⟩
    rw [given.unique also]
    exact ⟨p, Product.begins_of_ofAddress? found⟩
  | none =>
    refine .inr ⟨_, rfl, .product address _ given rfl, fun held => ?_⟩
    obtain ⟨p, known⟩ := Product.exists_ofAddress?.mpr (held address given)
    cases found.symm.trans known

/-- The address with the credentials of the record in it, if it gives some. -/
def carriedAddress [Url.HostNames] (record : Record) (address : String) : Except Defect String :=
  if (record.optionalText "user_name").isSome || (record.optionalText "password").isSome then
    (Settings.withCredentials address (record.optionalText "user_name")
      (record.optionalText "password")).mapError fun reason => ⟨"user_name field", reason⟩
  else .ok address

theorem credentials_checked [Url.HostNames] {address : String} (given : Addressed record address) :
    (checks record).Checked .credentials (fun _ => True) (carriedAddress record address) := by
  unfold carriedAddress
  split
  · rename_i some_given
    have credited := credited_iff.mpr some_given
    cases read : Url.ofText address with
    | error flaw =>
      refine .inr ⟨_, ?_, .url address flaw.message flaw given read rfl, fun held => ?_⟩
      · rw [Settings.withCredentials, read]
        rfl
      · obtain ⟨url, a, parsed, -⟩ := held credited address given
        cases read.symm.trans parsed
    | ok url =>
      rw [Settings.withCredentials_of_read read]
      cases host : url.host? with
      | some a =>
        obtain ⟨v, put⟩ := Url.exists_withCredentials? host (record.optionalText "user_name")
          (record.optionalText "password")
        rw [put]
        refine .inl ⟨v.text, rfl, trivial, fun _ other also => ?_⟩
        rw [given.unique also]
        exact ⟨url, a, read, Url.host?_eq_some.mp host⟩
      | none =>
        rw [Url.withCredentials?_of_hostless host some_given]
        refine .inr ⟨_, rfl, .host address url given read, fun held => ?_⟩
        obtain ⟨u, a, parsed, found⟩ := held credited address given
        cases read.symm.trans parsed
        cases host.symm.trans (Url.host?_eq_some.mpr found)
  · rename_i none_given
    exact .inl ⟨address, rfl, trivial, fun credited => absurd (credited_iff.mp credited) none_given⟩

/-! ### Options -/

/-- The option read of a field is the one the record gives. -/
theorem gives_iff {field : String} {bits bound n : Nat} (whole : Nat.pow 2 bits = bound) :
    Gives record field bound n ↔ (record.get? field).bind (Json.unsigned? bits) = some n := by
  simp only [Option.bind_eq_some_iff, Json.unsigned?_eq_some, Gives, whole]
  constructor
  · rintro ⟨found, small⟩
    exact ⟨_, found, rfl, small⟩
  · rintro ⟨v, found, rfl, small⟩
    exact ⟨found, small⟩

theorem maxConnections_eq_some {n : Nat} : Gives record "max_connections" 0x100000000 n ↔
    (PoolOptions.ofRecord record).maxConnections = some n := gives_iff rfl

theorem minConnections_eq_some {n : Nat} : Gives record "min_connections" 0x100000000 n ↔
    (PoolOptions.ofRecord record).minConnections = some n := gives_iff rfl

theorem querySeconds_eq_some {n : Nat} : Gives record "query_timeout_secs" 0x10000000000000000 n ↔
    (PoolOptions.ofRecord record).querySeconds = some n := gives_iff rfl

/-- What a pool demands of its options. -/
def demand (sound : Bool) (invalid : PoolOptions.Invalid) : Except Defect Unit :=
  if sound then .ok () else .error ⟨"pool options", invalid.message⟩

theorem demand_checked [Url.HostNames] {check : Check} {sound : Bool}
    {invalid : PoolOptions.Invalid}
    (holds : sound = true → Holds record check)
    (fails : sound = false → Reported record check ⟨"pool options", invalid.message⟩ ∧
      ¬ Holds record check) :
    (checks record).Checked check (fun _ => True) (demand sound invalid) := by
  cases sound with
  | true => exact .inl ⟨(), rfl, trivial, holds rfl⟩
  | false => exact .inr ⟨_, rfl, fails rfl⟩

/-- Whether statements may run for so many seconds. -/
def mayRunFor (o : PoolOptions) : Bool :=
  !(o.querySeconds.any fun s => s = 0 || PoolOptions.maxQuerySeconds < s)

/-- The bounds of a pool, which are not to be crossed. -/
def uncrossed (o : PoolOptions) : Except Defect Unit :=
  match o.minConnections, o.maxConnections with
  | some low, some high => demand (low ≤ high) (.minAboveMax low high)
  | _, _ => .ok ()

theorem connections_checked [Url.HostNames] (record : Record) :
    (checks record).Checked .connections (fun _ => True)
    (demand ((PoolOptions.ofRecord record).maxConnections ≠ some 0) .noConnections) := by
  refine demand_checked (fun sound => ?_) fun unsound => ⟨.connections, fun held => held ?_⟩
  · exact fun zero => of_decide_eq_true sound (maxConnections_eq_some.mp zero)
  · exact maxConnections_eq_some.mpr (not_not.mp (of_decide_eq_false unsound))

theorem mayRunFor_iff {o : PoolOptions} :
    mayRunFor o = true ↔ ∀ n, o.querySeconds = some n → 1 ≤ n ∧ n ≤ 300 := by
  rw [mayRunFor, PoolOptions.maxQuerySeconds]
  cases o.querySeconds with
  | none => simp
  | some n =>
    simp only [Option.any_some, Bool.not_eq_true', Bool.or_eq_false_iff, decide_eq_false_iff_not,
      Option.some.injEq, forall_eq']
    omega

theorem seconds_checked [Url.HostNames] (record : Record) : (checks record).Checked .seconds
    (fun _ => True)
    (demand (mayRunFor (PoolOptions.ofRecord record)) .querySeconds) := by
  refine demand_checked (fun sound n given => ?_) fun unsound => ⟨.seconds, fun held => ?_⟩
  · exact mayRunFor_iff.mp sound n (querySeconds_eq_some.mp given)
  · have sound := mayRunFor_iff.mpr fun n found => held n (querySeconds_eq_some.mpr found)
    cases sound.symm.trans unsound

theorem bounds_checked [Url.HostNames] (record : Record) : (checks record).Checked .bounds
    (fun _ => True)
    (uncrossed (PoolOptions.ofRecord record)) := by
  unfold uncrossed
  split
  · rename_i low high min max
    refine demand_checked (fun sound l h lower upper => ?_) fun unsound => ⟨?_, fun held => ?_⟩
    · cases min.symm.trans (minConnections_eq_some.mp lower)
      cases max.symm.trans (maxConnections_eq_some.mp upper)
      exact of_decide_eq_true sound
    · exact .bounds low high (minConnections_eq_some.mpr min) (maxConnections_eq_some.mpr max)
    · exact of_decide_eq_false unsound
        (held low high (minConnections_eq_some.mpr min) (maxConnections_eq_some.mpr max))
  · rename_i other
    exact .inl ⟨(), rfl, trivial, fun low high lower upper =>
      absurd (maxConnections_eq_some.mp upper) (other low high (minConnections_eq_some.mp lower))⟩

/-! ## All of them -/

/-- What a pool demands, in order. -/
def soundPool (o : PoolOptions) : Except Defect Unit :=
  (demand (o.maxConnections ≠ some 0) .noConnections).bind fun _ =>
    (demand (mayRunFor o) .querySeconds).bind fun _ => uncrossed o

/-- Options are invalid for the first demand that they do not meet. -/
theorem soundPool_eq (o : PoolOptions) : soundPool o =
    o.invalid?.elim (.ok ()) fun invalid => .error ⟨"pool options", invalid.message⟩ := by
  unfold soundPool
  obtain ⟨most, least, idle, acquire, seconds⟩ := o
  by_cases zero : most = some 0
  · simp [demand, PoolOptions.invalid?, zero, Except.bind]
  · have first : demand (decide (most ≠ some 0)) .noConnections = .ok () := by simp [demand, zero]
    simp only [first, Except.bind, PoolOptions.invalid?, if_neg zero, mayRunFor]
    cases seconds.any fun s => s = 0 || PoolOptions.maxQuerySeconds < s with
    | true => rfl
    | false =>
      cases least with
      | none => rfl
      | some low =>
        cases most with
        | none => rfl
        | some high =>
          by_cases crossed : high < low
          · simp [demand, uncrossed, crossed, Nat.not_le.mpr crossed]
          · simp [demand, uncrossed, crossed, Nat.not_lt.mp crossed]

theorem ofRecord_eq [Url.HostNames] (record : Record) : Settings.ofRecord record =
    (record.requiredText "address").bind fun address => (knownProduct address).bind fun product =>
      (carriedAddress record address).bind fun text => (soundPool (.ofRecord record)).bind fun _ =>
        .ok ⟨product, text, record.optionalText "user_name", record.optionalText "password",
          .ofRecord record⟩ := by
  rw [Settings.ofRecord]
  simp only [bind, soundPool_eq, knownProduct, carriedAddress]
  cases record.requiredText "address" with
  | error d => rfl
  | ok address =>
    simp only [Except.bind]
    cases Product.ofAddress? address with
    | none => rfl
    | some product =>
      simp only
      by_cases given : ((record.optionalText "user_name").isSome ||
          (record.optionalText "password").isSome) = true
      · simp only [if_pos given]
        cases Settings.withCredentials address (record.optionalText "user_name")
            (record.optionalText "password") with
        | error reason => rfl
        | ok text => cases (PoolOptions.ofRecord record).invalid? <;> rfl
      · simp only [if_neg given]
        cases (PoolOptions.ofRecord record).invalid? <;> rfl

theorem soundPool_decided [Url.HostNames]
    (held : ∀ earlier ∈ [.address, .product, .credentials], Holds record earlier) :
    (checks record).Decided (fun _ => True ∧ ∀ check ∈ (checks record).order, Holds record check)
      (soundPool (.ofRecord record)) := by
  unfold soundPool
  refine (connections_checked record).bind [.address, .product, .credentials] rfl held
    fun _ _ held => ?_
  refine (seconds_checked record).bind [.address, .product, .credentials, .connections] rfl held
    fun _ _ held => ?_
  exact (bounds_checked record).decided
    [.address, .product, .credentials, .connections, .seconds] rfl held

theorem ofRecord_decided [Url.HostNames] (record : Record) :
    (checks record).Decided (fun _ => ∀ check, Holds record check) (Settings.ofRecord record) := by
  rw [ofRecord_eq]
  refine (address_checked record).bind [] rfl (by simp) fun address given held => ?_
  refine (product_checked given).bind [.address] rfl held fun product _ held => ?_
  refine (credentials_checked given).bind [.address, .product] rfl held fun text _ held => ?_
  refine (soundPool_decided held).bind fun _ found => .inl ⟨_, rfl, fun check => ?_⟩
  exact found.2 check (by cases check <;> simp [checks])

/-- **What a database handle takes from a record.** It has settings exactly when all six checks hold
of the record, and otherwise reports the first that fails. Without a user name and a password the
address is kept as it is written. -/
theorem records_taken [Url.HostNames] (record : Record) :
    ((∃ s, Settings.ofRecord record = .ok s) ↔ ∀ check, Holds record check) ∧
    ((¬ ∀ check, Holds record check) → ∃ check defect, (checks record).FirstFails check ∧
      Reported record check defect ∧ Settings.ofRecord record = .error defect) ∧
    ∀ s, Settings.ofRecord record = .ok s → ¬ Credited record → Addressed record s.address := by
  obtain ⟨taken, refused⟩ := (ofRecord_decided record).verdict
  refine ⟨taken, refused, fun s accepted plain => ?_⟩
  obtain ⟨address, read⟩ := Settings.ofRecord_readFrom accepted
  rw [credited_iff, Bool.not_eq_true, Bool.or_eq_false_iff, Option.isSome_eq_false_iff,
    Option.isSome_eq_false_iff, Option.isNone_iff_eq_none, Option.isNone_iff_eq_none] at plain
  rw [read.kept (read.user.trans plain.1) (read.pass.trans plain.2)]
  exact Record.requiredText_eq_ok.mp read.written

/-- Of two checks that fail the first is reported. -/
example : Settings.ofRecord [("address", .string "MySQL://h"), ("max_connections", .integer 0),
    ("query_timeout_secs", .integer 0)] =
      .error ⟨"pool options", "max_connections must be greater than 0"⟩ := by rfl

end NamedStores.Sql
