/-
The expiration of a value as a client of the Redis protocol sends it. None and zero are not sent;
any other is sent in whole milliseconds, at least one. The milliseconds are counted in 64 bits
but expirations go further, so of `2 ^ 64` milliseconds or more only the remainder is sent, and
a longer life may become a shorter one.
-/
import NamedStores.KeyValue.Handle
import NamedStores.KeyValue.Resp
import NamedStores.Proofs.Text.Integer
import NamedStores.Proofs.Text.Utf8

namespace NamedStores.KeyValue.Resp

/-! ## What is sent -/

/-- The longest expiration: `2 ^ 64 - 1` seconds and 999999999 nanoseconds. -/
def longest : Nat := 0xFFFFFFFFFFFFFFFF * 1000000000 + 999999999

/-- The whole milliseconds of an expiration. -/
def milliseconds (expiration : Nat) : Nat := expiration / nanoseconds

/-- How many milliseconds 64 bits tell apart: `2 ^ 64`. -/
def countable : Nat := 0x10000000000000000

/-- The time to live that is sent for an expiration, in milliseconds. -/
def life : Option Nat → Option Nat
  | none => none
  | some ns => if ns = 0 then none else some (max 1 (milliseconds ns % countable))

/-- The command that stores octets under a key, for good or for some milliseconds. -/
def storing (key : String) (octets : Bytes) : Option Nat → Command
  | none => [Utf8.ofString "SET", Utf8.ofString key, octets]
  | some n => [Utf8.ofString "SET", Utf8.ofString key, octets, Utf8.ofString "PX",
      Utf8.encode (Nat.toDigits 10 n)]

theorem setCommand_eq (key : String) (octets : Bytes) (expiration : Option Nat) :
    setCommand key octets expiration = storing key octets (life expiration) := by
  cases expiration with
  | none => rfl
  | some ns =>
    by_cases zero : ns = 0
    · rw [zero]
      rfl
    · have digits (n : Nat) : Utf8.ofString (toString n) = Utf8.encode (Nat.toDigits 10 n) := by
        rw [Utf8.ofString]
        exact congrArg Utf8.encode Nat.toList_repr
      simp only [setCommand, life, if_neg zero, storing, command, List.map_cons, List.map_nil,
        digits, milliseconds, countable, List.cons_append, List.nil_append]

/-- The server reads the time to live back from its digits. -/
theorem natural?_sent (n : Nat) :
    Integer.natural? (Utf8.decodeLossy (Utf8.encode (Nat.toDigits 10 n))) = some n := by
  rw [Utf8.decodeLossy_encode, Integer.natural?_toDigits]

/-! ## What the server is sent -/

theorem run_commands (index : Int) (words : Command) (s : Server) :
    (run index words s).2.commands = s.commands := by
  unfold run
  split
  · split
    · rfl
    · split <;> rfl
  · split <;> rfl
  · rfl

/-- A server logs each command, answered or refused. -/
theorem call_commands {α : Type} (client : Client) (words : Command) (read : Reply → α)
    (s : Server) : (call client words read s).2.commands = s.commands ++ [words] := by
  have logged : (answer client.database words s).2.commands = s.commands ++ [words] := by
    unfold answer
    dsimp only
    split
    · rfl
    · exact run_commands ..
  unfold call
  split <;> next answered => rw [answered] at logged; exact logged

/-- A handle in use sends one command for a value it is to store. -/
theorem set_commands [Url.HostNames] (places : Places) {h : Handle Client} {client : Client}
    (held : h.client = some client) (key : String) (v : Json) (expiration : Option Nat)
    (s : Server) : (h.set (driver places) key (.ok v) expiration s).2.commands =
      s.commands ++ [storing key v.octets (life expiration)] := by
  have live : h.liveClient = .ok client := by simp only [NamedStores.Handle.liveClient, held]
  simp only [Handle.set, live, driver, ← setCommand_eq]
  exact call_commands client _ _ s

/-! ## How long a value lives -/

theorem life_some {ns : Nat} (h : 0 < ns) :
    life (some ns) = some (max 1 (milliseconds ns % countable)) := by
  have zero : ns ≠ 0 := by omega
  simp [life, zero]

/-- What is sent is the whole time exactly when 64 bits hold it. -/
theorem life_eq_iff {ns : Nat} (h : 0 < ns) :
    life (some ns) = some (max 1 (milliseconds ns)) ↔ milliseconds ns < countable := by
  rw [life_some h, Option.some.injEq]
  constructor
  · intro same
    refine Nat.lt_of_not_le fun far => ?_
    have part : milliseconds ns % countable < countable := Nat.mod_lt _ (by decide)
    have one : 1 < countable := by decide
    omega
  · intro near
    rw [Nat.mod_eq_of_lt near]

/-- As far as 64 bits hold the milliseconds, the longer of two expirations is sent as no less. -/
theorem life_mono {ns ns' : Nat} (h : 0 < ns) (le : ns ≤ ns')
    (near : milliseconds ns' < countable) : ∃ n n', life (some ns) = some n ∧
      life (some ns') = some n' ∧ n ≤ n' := by
  have ordered : milliseconds ns ≤ milliseconds ns' := Nat.div_le_div_right le
  have first := (life_eq_iff h).2 (Nat.lt_of_le_of_lt ordered near)
  have second := (life_eq_iff (Nat.lt_of_lt_of_le h le)).2 near
  exact ⟨_, _, first, second, by omega⟩

/-! ## Expirations of a handle in use -/

/-- For an expiration the server is sent one command, which stores the value for good or for so
many milliseconds. -/
def Sends [Url.HostNames] (places : Places) (h : Handle Client) (key : String) (v : Json)
    (s : Server)
    (expiration sent : Option Nat) : Prop :=
  (h.set (driver places) key (.ok v) expiration s).2.commands =
    s.commands ++ [storing key v.octets sent]

theorem storing_inj {key : String} {octets : Bytes} {sent sent' : Option Nat}
    (h : storing key octets sent = storing key octets sent') : sent = sent' := by
  cases sent with
  | none =>
    cases sent' with
    | none => rfl
    | some n => simp [storing] at h
  | some n =>
    cases sent' with
    | none => simp [storing] at h
    | some n' =>
      have digits := congrArg (fun words : Command =>
        (words.drop 4).map fun w => Integer.natural? (Utf8.decodeLossy w)) h
      simpa [storing, natural?_sent] using digits

theorem sends_iff [Url.HostNames] {places : Places} {h : Handle Client} {client : Client}
    (held : h.client = some client) {key : String} {v : Json} {s : Server}
    {expiration sent : Option Nat} :
    Sends places h key v s expiration sent ↔ life expiration = sent := by
  rw [Sends, set_commands places held]
  constructor
  · intro same
    exact storing_inj (List.singleton_inj.1 (List.append_cancel_left same))
  · intro same
    rw [same]

/-- **Expirations are counted in 64 bits.** None and zero are not sent; any other is sent as the
remainder of its whole milliseconds, at least one. That is the whole of it exactly when 64 bits
hold the milliseconds, and so far a longer expiration is never sent as a shorter one. -/
theorem expirations_counted [Url.HostNames] (places : Places) {h : Handle Client} {client : Client}
    (held : h.client = some client) (key : String) (v : Json) (s : Server) :
    Sends places h key v s none none ∧ Sends places h key v s (some 0) none ∧
      (∀ d, 0 < d → Sends places h key v s (some d) (some (max 1 (milliseconds d % countable)))) ∧
      (∀ d, 0 < d → (Sends places h key v s (some d) (some (max 1 (milliseconds d))) ↔
        milliseconds d < countable)) ∧
      ∀ d d', 0 < d → d ≤ d' → milliseconds d' < countable → ∃ n n',
        Sends places h key v s (some d) (some n) ∧ Sends places h key v s (some d') (some n') ∧
          n ≤ n' := by
  simp only [sends_iff held]
  refine ⟨rfl, rfl, ?_, ?_, ?_⟩
  · intro d positive
    exact life_some positive
  · intro d positive
    exact life_eq_iff positive
  · intro d d' positive le near
    exact life_mono positive le near

/-- A handle whose client works on database 0. -/
def inUse : Handle Client :=
  ⟨"cache", ⟨false, false⟩, "redis", 0, none, some ⟨0⟩, some 0⟩

theorem half_a_minute_counted :
    inUse.client = some ⟨0⟩ ∧ milliseconds 30000000000 < countable ∧
      Sends ⟨[], []⟩ inUse "k" (.integer 1) Server.fresh (some 30000000000) (some 30000) := by
  obtain ⟨-, -, -, whole, -⟩ :=
    expirations_counted ⟨[], []⟩ (h := inUse) rfl "k" (.integer 1) Server.fresh
  exact ⟨rfl, by decide, (whole 30000000000 (by decide)).2 (by decide)⟩

/-- 18446744073709552 seconds are sent as less than one. -/
theorem long_expiration_cut_short :
    18446744073709552000000000 ≤ longest ∧
      milliseconds 18446744073709552000000000 = 18446744073709552000 ∧
      Sends ⟨[], []⟩ inUse "k" (.integer 1) Server.fresh (some 18446744073709552000000000)
        (some 384) ∧
      ¬ Sends ⟨[], []⟩ inUse "k" (.integer 1) Server.fresh (some 18446744073709552000000000)
        (some (max 1 (milliseconds 18446744073709552000000000))) ∧
      Sends ⟨[], []⟩ inUse "k" (.integer 1) Server.fresh (some 1000000000) (some 1000) := by
  simp only [sends_iff (h := inUse) rfl]
  exact ⟨by decide, by decide, by decide, by decide, by decide⟩

end NamedStores.KeyValue.Resp
