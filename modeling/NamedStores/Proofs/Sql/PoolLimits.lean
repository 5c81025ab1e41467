/-
The limits of a pool. A record is checked as far as its options are given and well typed. What is
missing is filled in when a pool is planned, by the product of the address, and the minimum is
lowered to the maximum then. Together these keep a pool within its limits whatever the record says,
and the seconds a statement may take as well, which a handle carries with its client for as long as
it holds one.

What a driver is handed is seen by noting it: a driver under note does what the driver does
(`mirrors_noted`), so the plans noted in a run of requests are those that any driver gets.
-/
import NamedStores.Proofs.Handle.Watch
import NamedStores.Proofs.Sql.Acceptance
import NamedStores.Sqlite.Driver

namespace NamedStores.Sql

/-! ## Values in force -/

/-- The value in force for an option: the one the record gives, and the default if it gives none. -/
def InForce (record : Record) (field : String) (bound default value : Nat) : Prop :=
  (∀ n, Gives record field bound n → value = n) ∧
    ((∀ n, ¬ Gives record field bound n) → value = default)

theorem inForce_getD (record : Record) (field : String) (bits default : Nat) {bound : Nat}
    (whole : Nat.pow 2 bits = bound) :
    InForce record field bound default
      (((record.get? field).bind (Json.unsigned? bits)).getD default) := by
  constructor
  · intro n given
    rw [(gives_iff whole).mp given, Option.getD_some]
  · intro missing
    cases read : (record.get? field).bind (Json.unsigned? bits) with
    | none => rfl
    | some n => exact absurd ((gives_iff whole).mpr read) (missing n)

/-- The default keeps the limits, and so does every value that the checks let pass. -/
theorem InForce.within {record : Record} {field : String} {bound default value low high : Nat}
    (inForce : InForce record field bound default value) (sound : low ≤ default ∧ default ≤ high)
    (checked : ∀ n, Gives record field bound n → low ≤ n ∧ n ≤ high) :
    low ≤ value ∧ value ≤ high := by
  by_cases given : ∃ n, Gives record field bound n
  · obtain ⟨n, given⟩ := given
    rw [inForce.1 n given]
    exact checked n given
  · rw [inForce.2 (not_exists.mp given)]
    exact sound

/-! ## Plans -/

/-- The product whose client makes the connections. -/
def Target.product : Target → Product
  | .postgreSQL _ => .postgreSQL
  | .mySQL _ _ => .mySQL
  | .sqlite _ => .sqlite

def Target.address : Target → String
  | .postgreSQL address => address
  | .mySQL address _ => address
  | .sqlite address => address

/-- The limits of a pool. -/
structure PoolPlan.WithinLimits (plan : PoolPlan) : Prop where
  connects : 1 ≤ plan.maxConnections
  fits : plan.maxConnections ≤ 0xFFFFFFFF
  uncrossed : plan.minConnections ≤ plan.maxConnections

/-- A plan is what a record and its settings say, with the defaults for the product of the record's
address. -/
structure PoolPlan.AsGiven (plan : PoolPlan) (record : Record) (s : Settings) : Prop where
  product : ∀ address, Addressed record address → plan.target.product.Begins address
  address : plan.target.address = s.address
  charset : ∀ address charset, plan.target = .mySQL address charset → charset = "utf8mb4"
  most : InForce record "max_connections" 0x100000000
    (if plan.target.product = .sqlite then 1 else 10) plan.maxConnections
  /-- The minimum asked for is kept, unless it is above the maximum. -/
  least : ∃ asked, InForce record "min_connections" 0x100000000 1 asked ∧
    (asked ≤ plan.maxConnections → plan.minConnections = asked) ∧
    (plan.maxConnections < asked → plan.minConnections = plan.maxConnections)
  acquire : InForce record "acquire_timeout_secs" 0x10000000000000000 30 plan.acquireSeconds
  idle : ∃ seconds, plan.idleSeconds = some seconds ∧
    InForce record "idle_timeout_secs" 0x10000000000000000 600 seconds

theorem ofRecord_pool [Url.HostNames] {record : Record} {s : Settings}
    (accepted : Settings.ofRecord record = .ok s) :
    s.pool = PoolOptions.ofRecord record ∧ ∀ check, Holds record check := by
  refine ⟨?_, (records_taken record).1.mp ⟨s, accepted⟩⟩
  rw [ofRecord_eq] at accepted
  simp only [Except.bind] at accepted
  repeat' split at accepted
  all_goals cases accepted
  rfl

namespace Settings

variable {record : Record} {s : Settings}

theorem target_product (s : Settings) : s.target.product = s.product := by
  unfold target
  cases s.product <;> rfl

theorem target_address (s : Settings) : s.target.address = s.address := by
  unfold target
  cases s.product <;> rfl

theorem target_charset {address charset : String} (h : s.target = .mySQL address charset) :
    charset = "utf8mb4" := by
  unfold target at h
  cases product : s.product <;> simp [product] at h
  exact h.2.symm

theorem poolPlan_asGiven [Url.HostNames] (accepted : ofRecord record = .ok s) :
    s.poolPlan.AsGiven record s where
  product address given := by
    obtain ⟨written, read⟩ := ofRecord_readFrom accepted
    have same : address = written :=
      Except.ok.inj ((Record.requiredText_eq_ok.mpr given).symm.trans read.written)
    rw [same, poolPlan, target_product]
    exact Product.begins_of_ofAddress? read.product
  address := s.target_address
  charset _ _ := target_charset
  most := by
    rw [poolPlan, target_product, (ofRecord_pool accepted).1]
    simpa [PoolOptions.maxOrDefault, PoolOptions.ofRecord] using
      inForce_getD record "max_connections" 32 _ rfl
  least := by
    refine ⟨s.pool.minOrDefault, ?_, fun kept => Nat.min_eq_left kept,
      fun above => Nat.min_eq_right (Nat.le_of_lt above)⟩
    rw [(ofRecord_pool accepted).1]
    exact inForce_getD record "min_connections" 32 1 rfl
  acquire := by
    rw [poolPlan, (ofRecord_pool accepted).1]
    exact inForce_getD record "acquire_timeout_secs" 64 30 rfl
  idle := by
    refine ⟨s.pool.idleOrDefault, rfl, ?_⟩
    rw [(ofRecord_pool accepted).1]
    exact inForce_getD record "idle_timeout_secs" 64 600 rfl

theorem poolPlan_withinLimits [Url.HostNames] (accepted : ofRecord record = .ok s) :
    s.poolPlan.WithinLimits := by
  obtain ⟨-, held⟩ := ofRecord_pool accepted
  have given := poolPlan_asGiven accepted
  have most : 1 ≤ s.poolPlan.maxConnections ∧ s.poolPlan.maxConnections ≤ 0xFFFFFFFF := by
    refine given.most.within (by split <;> decide) fun n gives => ?_
    have positive : n ≠ 0 := fun zero => held .connections (zero ▸ gives)
    have small : n < 0x100000000 := gives.2
    omega
  exact ⟨most.1, most.2, Nat.min_le_right ..⟩

/-- The seconds a statement may take are those the record gives, within their limits. -/
theorem seconds_within [Url.HostNames] (accepted : ofRecord record = .ok s) :
    InForce record "query_timeout_secs" 0x10000000000000000 30 s.pool.queryOrDefault ∧
      1 ≤ s.pool.queryOrDefault ∧ s.pool.queryOrDefault ≤ 300 := by
  obtain ⟨pool, held⟩ := ofRecord_pool accepted
  rw [pool]
  have inForce := inForce_getD record "query_timeout_secs" 64 30 rfl
  exact ⟨inForce, inForce.within (by decide) (held .seconds)⟩

end Settings

/-! ## A driver under note -/

variable {ω κ : Type}

/-- A world and the plans that a driver was handed in it, the latest first. -/
structure Noted (ω : Type) where
  world : ω
  plans : List PoolPlan

/-- What is done in the world, with the plans as they are. -/
def Noted.aside {α : Type} (made : ω → α × ω) (w : Noted ω) : α × Noted ω :=
  let (a, world) := made w.world
  (a, ⟨world, w.plans⟩)

def Driver.noted (d : Driver ω κ) : Driver (Noted ω) κ where
  connect plan w :=
    let (result, world) := d.connect plan w.world
    (result, ⟨world, plan :: w.plans⟩)
  ping client := Noted.aside (d.ping client)
  version client := Noted.aside (d.version client)
  execute client sql params budget := Noted.aside (d.execute client sql params budget)
  fetch client sql params budget := Noted.aside (d.fetch client sql params budget)
  close client w := ⟨d.close client w.world, w.plans⟩
  isClosed client w := d.isClosed client w.world
  now w := d.now w.world

/-- Noting changes nothing. -/
theorem mirrors_noted [Url.HostNames] (d : Driver ω κ) :
    Mirrors (service d.noted) (service d) Noted.world id where
  readSettings := rfl
  connect s w := by
    simp only [service, Driver.backend, Driver.noted]
    cases (d.connect s.poolPlan w.world).1 <;> rfl
  ping s live w := rfl
  greet live w := rfl
  close live w := rfl
  now w := rfl
  operate h w o := by
    obtain ⟨name, policy, part, serial, settings, held, connectedAt⟩ := h
    cases o <;> cases held <;> rfl

/-! ## Runs of requests -/

/-- A handle has the settings of a record that was accepted. Each plan was made for them, and the
client it holds carries their seconds. -/
structure Planned [Url.HostNames] (m : NamedStores.Handle.Moment (Noted ω) Settings (Live κ)) :
    Prop where
  taken : ∀ s, m.handle.settings = some s → ∃ record, Settings.ofRecord record = .ok s
  planned : ∀ plan ∈ m.world.plans, ∃ s, m.handle.settings = some s ∧ plan = s.poolPlan
  timed : ∀ live, m.handle.client = some live →
    ∃ s, m.handle.settings = some s ∧ live.querySeconds = s.pool.queryOrDefault

/-- A client is opened with the plan and the seconds of the settings. -/
theorem openClient_noted [Url.HostNames] (d : Driver ω κ) (s : Settings) (w : Noted ω) :
    (NamedStores.Handle.openClient d.noted.backend s w).2.plans = s.poolPlan :: w.plans ∧
      ∀ live, (NamedStores.Handle.openClient d.noted.backend s w).1 = .ok live →
        live.querySeconds = s.pool.queryOrDefault := by
  simp only [NamedStores.Handle.openClient, Driver.backend, Driver.noted, Noted.aside]
  cases (d.connect s.poolPlan w.world).1 with
  | error refused => simp [Except.map, Except.mapError]
  | ok client =>
    simp only [Except.map, Except.mapError]
    cases (d.ping client (d.connect s.poolPlan w.world).2).1 with
    | error silent => simp
    | ok answer => simp

/-- No data operation makes a pool. -/
theorem operate_noted [Url.HostNames] (d : Driver ω κ) (h : Handle κ) (w : Noted ω)
    (o : Operation) : ((service d.noted).operate h w o).2.plans = w.plans := by
  obtain ⟨name, policy, part, serial, settings, held, connectedAt⟩ := h
  cases o <;> cases held <;> rfl

theorem Planned.configures [Url.HostNames] {d : Driver ω κ} {c : Configuration} {part : String}
    {m : NamedStores.Handle.Moment (Noted ω) Settings (Live κ)} {h' : Handle κ} {s : Settings}
    (held : Planned m)
    (hc : NamedStores.Handle.Configures d.noted.backend c part m.handle s h') :
    Planned ⟨h', m.world⟩ := by
  rcases hc with ⟨-, rfl⟩ | ⟨missing, ⟨record, -, read⟩, rfl⟩
  · exact held
  · refine ⟨fun s' taken => ?_, fun plan noted => ?_, fun live client => ?_⟩
    · cases taken
      exact ⟨record, read⟩
    · obtain ⟨s', there, -⟩ := held.planned plan noted
      cases missing.symm.trans there
    · obtain ⟨s', there, -⟩ := held.timed live client
      cases missing.symm.trans there

/-- A pool is made with the plan of the settings. -/
theorem Planned.connects [Url.HostNames] {d : Driver ω κ} {h : Handle κ} {w w' : Noted ω}
    {s : Settings} {result : Except Refusal (Live κ)} (held : Planned ⟨h, w⟩)
    (there : h.settings = some s)
    (opened : NamedStores.Handle.openClient d.noted.backend s w = (result, w')) :
    Planned ⟨h, w'⟩ := by
  obtain ⟨plans, -⟩ := openClient_noted d s w
  rw [opened] at plans
  refine ⟨held.taken, fun plan noted => ?_, held.timed⟩
  rw [plans] at noted
  rcases List.mem_cons.mp noted with rfl | before
  · exact ⟨s, there, rfl⟩
  · exact held.planned plan before

theorem step_planned [Url.HostNames] (d : Driver ω κ) (own : Configuration)
    {m : NamedStores.Handle.Moment (Noted ω) Settings (Live κ)} (held : Planned m)
    (r : NamedStores.Handle.Request Operation) :
    Planned (NamedStores.Handle.step (service d.noted) own m r).2 := by
  cases r with
  | apply c part =>
    rcases he : m.handle.apply d.noted.backend c part with ⟨result, h'⟩
    simp only [NamedStores.Handle.step, service, he]
    rcases NamedStores.Handle.apply_cases he with ⟨e, -, -, rfl⟩ | ⟨s, hc, -⟩
    · exact held
    · exact held.configures hc
  | connect =>
    rcases he : m.handle.connect d.noted.backend own m.world with ⟨result, h', w⟩
    simp only [NamedStores.Handle.step, service, he]
    rcases NamedStores.Handle.connect_cases he with
      ⟨-, -, rfl, rfl⟩ | ⟨-, e, -, -, rfl, rfl⟩ | ⟨-, s, refusal, hc, opened, -⟩ |
        ⟨-, s, h₁, live, hc, opened, -, rfl⟩
    · exact held
    · exact held
    · exact (held.configures hc).connects hc.settings opened
    · have made := (held.configures hc).connects hc.settings opened
      refine ⟨made.taken, made.planned, fun live' client => ?_⟩
      cases client
      exact ⟨s, hc.settings, (openClient_noted d s m.world).2 live (by rw [opened])⟩
  | disconnect =>
    rcases he : m.handle.disconnect d.noted.backend m.world with ⟨result, h', w⟩
    simp only [NamedStores.Handle.step, service, he]
    rcases NamedStores.Handle.disconnect_cases he with
      ⟨-, -, rfl, rfl⟩ | ⟨live, -, ⟨message, closed, -, rfl⟩ | ⟨closed, -, rfl⟩⟩
    · exact held
    · cases closed
    · cases closed
      exact ⟨held.taken, held.planned, fun live' client => by cases client⟩
  | operate o =>
    have plans := operate_noted d m.handle m.world o
    exact ⟨held.taken, fun plan noted => held.planned plan (plans ▸ noted), held.timed⟩

theorem run_planned [Url.HostNames] (d : Driver ω κ) (own : Configuration) :
    ∀ (m : NamedStores.Handle.Moment (Noted ω) Settings (Live κ)), Planned m →
      ∀ requests, Planned (NamedStores.Handle.run (service d.noted) own m requests)
  | _, held, [] => held
  | m, held, r :: requests =>
    run_planned d own (NamedStores.Handle.step (service d.noted) own m r).2
      (step_planned d own held r) requests

/-- **A pool within its limits.** For every record that is accepted a driver is handed one plan: at
least one connection and no more than 32 bits hold, a minimum that is not above the maximum, and
each option as the record gives it, but for the minimum, which is lowered to the maximum. Whatever
is asked of a handle, no driver is handed other plans than such, and a client lets a statement run
for the seconds that such a record gives, one to 300. -/
theorem pool_within_limits [Url.HostNames] (d : Driver ω κ) :
    (∀ record s, Settings.ofRecord record = .ok s → ∀ w, ∃ plan,
      (d.noted.backend.connect s w).2.plans = plan :: w.plans ∧
        plan.WithinLimits ∧ plan.AsGiven record s) ∧
    Mirrors (service d.noted) (service d) Noted.world id ∧
    ∀ own name policy part serial w requests,
      let now := NamedStores.Handle.run (service d.noted) own
        ⟨NamedStores.Handle.create name policy part serial, ⟨w, []⟩⟩ requests
      (∀ plan ∈ now.world.plans, ∃ record s, Settings.ofRecord record = .ok s ∧
        now.handle.settings = some s ∧ plan.WithinLimits ∧ plan.AsGiven record s) ∧
      ∀ live, now.handle.client = some live → ∃ record s, Settings.ofRecord record = .ok s ∧
        now.handle.settings = some s ∧
        InForce record "query_timeout_secs" 0x10000000000000000 30 live.querySeconds ∧
        1 ≤ live.querySeconds ∧ live.querySeconds ≤ 300 := by
  refine ⟨fun record s accepted w => ?_, mirrors_noted d, ?_⟩
  · exact ⟨s.poolPlan, rfl, Settings.poolPlan_withinLimits accepted,
      Settings.poolPlan_asGiven accepted⟩
  intro own name policy part serial w requests now
  have created : Planned (κ := κ) ⟨NamedStores.Handle.create name policy part serial, ⟨w, []⟩⟩ :=
    ⟨fun s there => (Option.some_ne_none s there.symm).elim,
      fun plan noted => (List.not_mem_nil noted).elim,
      fun live there => (Option.some_ne_none live there.symm).elim⟩
  have held : Planned now := run_planned d own _ created requests
  constructor
  · intro plan noted
    obtain ⟨s, there, rfl⟩ := held.planned plan noted
    obtain ⟨record, accepted⟩ := held.taken s there
    exact ⟨record, s, accepted, there, Settings.poolPlan_withinLimits accepted,
      Settings.poolPlan_asGiven accepted⟩
  · intro live client
    obtain ⟨s, there, seconds⟩ := held.timed live client
    obtain ⟨record, accepted⟩ := held.taken s there
    exact ⟨record, s, accepted, there, seconds ▸ Settings.seconds_within accepted⟩

/-- A minimum above the maximum that a file gets by default, and a maximum that is no number. -/
def crowded : Record := [("address", .string "sqlite::memory:"), ("max_connections", .string "9"),
  ("min_connections", .integer 5), ("query_timeout_secs", .integer 20)]

def crowdedSettings : Settings :=
  ⟨.sqlite, "sqlite::memory:", none, none, ⟨none, some 5, none, none, some 20⟩⟩

/-- The handle of that record, asked to connect. -/
def crowdedNow : NamedStores.Handle.Moment (Noted Sqlite.World) Settings (Live Sqlite.Client) :=
  NamedStores.Handle.run (service Sqlite.driver.noted)
    ⟨[("databases", .object [("a", .object crowded)])]⟩
    ⟨NamedStores.Handle.create "a" ⟨false, false⟩ "databases" 0, ⟨Sqlite.World.fresh [], []⟩⟩
    [.connect]

theorem crowded_file_keeps_one :
    Settings.ofRecord crowded = .ok crowdedSettings ∧
    crowdedNow.world.plans = [⟨.sqlite "sqlite::memory:", 1, 1, 30, some 600⟩] ∧
    (∀ plan ∈ crowdedNow.world.plans, plan.WithinLimits) ∧
    crowdedNow.handle.client.map (·.querySeconds) = some 20 ∧
    ∀ live, crowdedNow.handle.client = some live → live.querySeconds ≤ 300 := by
  obtain ⟨-, -, runs⟩ := pool_within_limits Sqlite.driver
  obtain ⟨plans, seconds⟩ := runs _ _ _ _ _ _ _
  refine ⟨rfl, rfl, fun plan noted => ?_, rfl, fun live client => ?_⟩
  · obtain ⟨_, _, -, -, within, -⟩ := plans plan noted
    exact within
  · obtain ⟨_, _, -, -, -, -, bound⟩ := seconds live client
    exact bound

end NamedStores.Sql
