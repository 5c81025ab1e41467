/-
Servers that behave as a map from a database index and a key to octets. What a connected handle
reads and writes of such a server is what it would of the map at the index of its client; and
what was set is read back, since a value is read back from its text.
-/
import NamedStores.KeyValue.Handle
import NamedStores.KeyValue.Memory
import NamedStores.Proofs.Handle.Life
import NamedStores.Proofs.Json.RoundTrip

namespace NamedStores

namespace KeyValue

/-! ## The map -/

/-- The octets under each key of each database. -/
abbrev Contents := Int → String → Option Bytes

/-- Octets put under one key of one database, or taken away. -/
def Contents.put (m : Contents) (n : Int) (key : String) (octets : Option Bytes) : Contents :=
  fun n' key' => if n' = n ∧ key' = key then octets else m n' key'

theorem Contents.put_self (m : Contents) (n : Int) (key : String) (octets : Option Bytes) :
    m.put n key octets n key = octets :=
  if_pos ⟨rfl, rfl⟩

theorem Contents.eq_of_put_ne {m : Contents} {n n' : Int} {key key' : String}
    {octets : Option Bytes} (h : m.put n key octets n' key' ≠ m n' key') : n' = n ∧ key' = key := by
  by_contra other
  exact h (if_neg other)

/-- How many keys are removed with what stands there. -/
def removed (octets : Option Bytes) : Nat := if octets.isSome then 1 else 0

/-- A server that behaves as a map, in the worlds where it does what it is asked. Clients may be
refused and may fail to answer or to close; that touches nothing. -/
structure MapServer {ω κ : Type} (d : Driver ω κ) where
  contents : ω → Contents
  /-- The database that a client works on. -/
  index : κ → Int
  /-- Someone else writes octets under a key. -/
  write : Int → String → Bytes → ω → ω
  Serves : ω → Prop
  get : ∀ k key w, Serves w → (d.get k key w).1 = .ok (contents w (index k) key) ∧
    contents (d.get k key w).2 = contents w ∧ Serves (d.get k key w).2
  set : ∀ k key octets expiration w, Serves w → (d.set k key octets expiration w).1 = .ok () ∧
    contents (d.set k key octets expiration w).2 = (contents w).put (index k) key (some octets) ∧
    Serves (d.set k key octets expiration w).2
  delete : ∀ k key w, Serves w →
    (d.delete k key w).1 = .ok (removed (contents w (index k) key)) ∧
    contents (d.delete k key w).2 = (contents w).put (index k) key none ∧
    Serves (d.delete k key w).2
  connect : ∀ s w, Serves w → contents (d.connect s w).2 = contents w ∧
    Serves (d.connect s w).2 ∧ ∀ k, (d.connect s w).1 = .ok k → index k = s.database
  ping : ∀ k w, Serves w → contents (d.ping k w).2 = contents w ∧ Serves (d.ping k w).2
  close : ∀ k w, Serves w → contents (d.close k w).2 = contents w ∧ Serves (d.close k w).2
  written : ∀ n key octets w, Serves w →
    contents (write n key octets w) = (contents w).put n key (some octets) ∧
    Serves (write n key octets w)

/-! ## The server in memory -/

namespace Store

theorem value?_put (s : Store) (n : Int) (key : String) (e : Entry) :
    (s.put n key e).value? = Contents.put s.value? n key (some e.value) := by
  funext n' key'
  by_cases same : n' = n ∧ key' = key
  · obtain ⟨rfl, rfl⟩ := same
    rw [value?, find?_put_self, Contents.put_self]
    rfl
  · rw [value?, find?_put_other s e same, Contents.put, if_neg same, value?]

theorem value?_erase (s : Store) (n : Int) (key : String) :
    (s.erase n key).value? = Contents.put s.value? n key none := by
  funext n' key'
  by_cases same : n' = n ∧ key' = key
  · obtain ⟨rfl, rfl⟩ := same
    rw [Contents.put_self]
    simp [value?, find?, database, erase, SortedMap.get?_insert_self, SortedMap.get?_erase_self]
  · rw [Contents.put, if_neg same]
    by_cases here : n' = n
    · subst here
      have other : key' ≠ key := fun hk => same ⟨rfl, hk⟩
      simp [value?, find?, database, erase, SortedMap.get?_insert_self,
        SortedMap.get?_erase_other _ other]
    · simp [value?, find?, database, erase, SortedMap.get?_insert_other _ _ here]

theorem removed_value? (s : Store) (n : Int) (key : String) :
    (s.find? n key).toList.length = removed (s.value? n key) := by
  rw [value?, removed]
  cases s.find? n key <;> rfl

end Store

namespace Memory

/-- No data command is refused. -/
def Serves (s : Server) : Prop :=
  s.refused.get? "get" = none ∧ s.refused.get? "set" = none ∧ s.refused.get? "delete" = none

theorem Serves.of_refused {s s' : Server} (h : Serves s) (same : s'.refused = s.refused) :
    Serves s' := by
  rw [Serves, same]
  exact h

theorem unlessRefused_ok {α : Type} {command : String} (run : Server → α × Server) {s : Server}
    (h : s.refused.get? command = none) :
    unlessRefused command run s = (.ok (run s).1, (run s).2) := by
  simp only [unlessRefused, h]

/-- A command that leaves the store as it is leaves it so too where it is refused. -/
theorem unlessRefused_keeps {α : Type} (command : String) (run : Server → α × Server)
    (keeps : ∀ s, (run s).2.store = s.store ∧ (run s).2.refused = s.refused) (s : Server) :
    (unlessRefused command run s).2.store = s.store ∧
      (unlessRefused command run s).2.refused = s.refused := by
  unfold unlessRefused
  split
  · exact ⟨rfl, rfl⟩
  · exact keeps s

theorem connect_keeps [Url.HostNames] (settings : Settings) (s : Server) :
    (connect settings s).2.store = s.store ∧ (connect settings s).2.refused = s.refused ∧
      ∀ k, (connect settings s).1 = .ok k → k.database = settings.database := by
  unfold connect
  split
  · exact ⟨rfl, rfl, nofun⟩
  · next url _ =>
    unfold unlessRefused
    split
    · exact ⟨rfl, rfl, nofun⟩
    · exact ⟨rfl, rfl, fun k opened => by cases opened; rfl⟩

/-- The server in memory behaves as a map. -/
def mapServer [Url.HostNames] : MapServer driver where
  contents s := s.store.value?
  index k := k.database
  write n key octets s := s.putRaw n key octets
  Serves := Serves
  get k key s serves := by
    simp only [driver, unlessRefused_ok _ serves.1]
    exact ⟨trivial, trivial, serves⟩
  set k key octets expiration s serves := by
    simp only [driver, unlessRefused_ok _ serves.2.1]
    exact ⟨trivial, Store.value?_put _ _ _ _, serves⟩
  delete k key s serves := by
    simp only [driver, unlessRefused_ok _ serves.2.2, Store.removed_value?]
    exact ⟨trivial, Store.value?_erase _ _ _, serves⟩
  connect settings s serves := by
    obtain ⟨store, refused, index⟩ := connect_keeps settings s
    simp only [driver, store]
    exact ⟨trivial, serves.of_refused refused, index⟩
  ping k s serves := by
    have keeps := unlessRefused_keeps "ping" (fun s => ((), s)) (fun _ => ⟨rfl, rfl⟩) s
    simp only [driver, keeps.1]
    exact ⟨trivial, serves.of_refused keeps.2⟩
  close k s serves := by
    have keeps := unlessRefused_keeps "close"
      (fun s => ((), { s with closes := s.closes + 1 })) (fun _ => ⟨rfl, rfl⟩) s
    simp only [driver, keeps.1]
    exact ⟨trivial, serves.of_refused keeps.2⟩
  written n key octets s serves := ⟨Store.value?_put _ _ _ _, serves⟩

end Memory

/-! ## Data operations, on the map -/

/-- The octets of a key as the value of a shape; nothing where the key is absent. -/
def decoded (name : String) (shape : Json.Shape) (key : String) :
    Option Bytes → Except Failure (Option Json)
  | none => .ok none
  | some octets =>
    match Json.ofOctetsAs shape octets with
    | .ok v => .ok (some v)
    | .error message => .error (.serialization name key message)

/-- What is read of the map by a handle whose client, if it has one, works on a database. -/
def readOf (m : Contents) (name : String) (place : Option Int) (shape : Json.Shape)
    (key : String) : Except Failure (Option Json) :=
  match place with
  | none => .error (.notConnected name)
  | some n => decoded name shape key (m n key)

/-- As `readOf`, but an absent key is a failure. -/
def demanded (name key : String) : Except Failure (Option Json) → Except Failure Json
  | .error f => .error f
  | .ok none => .error (.keyNotFound name key)
  | .ok (some v) => .ok v

/-- A value is stored as its text, unless JSON cannot hold it. That is found out first. -/
def storedOf (name : String) (place : Option Int) (key : String) :
    Except String Json → Except Failure Unit
  | .error message => .error (.serialization name key message)
  | .ok _ =>
    match place with
    | none => .error (.notConnected name)
    | some _ => .ok ()

def deletedOf (m : Contents) (name : String) (place : Option Int) (key : String) :
    Except Failure Nat :=
  match place with
  | none => .error (.notConnected name)
  | some n => .ok (removed (m n key))

/-- The map after a value was stored, where there is a client and a text to store. -/
def afterSet (m : Contents) (place : Option Int) (key : String) (value : Except String Json) :
    Contents :=
  match place, value with
  | some n, .ok v => m.put n key (some v.octets)
  | _, _ => m

def afterDelete (m : Contents) (place : Option Int) (key : String) : Contents :=
  match place with
  | some n => m.put n key none
  | none => m

namespace MapServer

variable {ω κ : Type} {d : Driver ω κ} (s : MapServer d) (h : Handle κ)

/-- The database that a handle works on, if it has a client. -/
def place : Option Int := h.client.map s.index

variable {h} in
theorem place_none (none : h.client = none) : s.place h = Option.none := by
  rw [place, none, Option.map_none]

variable {h} in
theorem place_client {k : κ} (hk : h.client = some k) : s.place h = some (s.index k) := by
  rw [place, hk, Option.map_some]

variable {w : ω} (serves : s.Serves w) (key : String)

include serves

theorem get_computed (shape : Json.Shape) :
    (Handle.get d h shape key w).1 = readOf (s.contents w) h.name (s.place h) shape key ∧
      s.contents (Handle.get d h shape key w).2 = s.contents w ∧
      s.Serves (Handle.get d h shape key w).2 := by
  cases hk : h.client with
  | none =>
    simp only [Handle.get, NamedStores.Handle.liveClient, place, hk, readOf, Option.map_none]
    exact ⟨trivial, trivial, serves⟩
  | some k =>
    obtain ⟨found, kept, serves'⟩ := s.get k key w serves
    rcases hg : d.get k key w with ⟨result, w'⟩
    rw [hg] at found kept serves'
    cases found
    simp only [Handle.get, NamedStores.Handle.liveClient, place, hk, readOf, Option.map_some, hg]
    cases s.contents w (s.index k) key with
    | none => exact ⟨rfl, kept, serves'⟩
    | some octets =>
      simp only [decoded]
      cases Json.ofOctetsAs shape octets <;> exact ⟨rfl, kept, serves'⟩

theorem mustGet_computed (shape : Json.Shape) :
    (Handle.mustGet d h shape key w).1 =
        demanded h.name key (readOf (s.contents w) h.name (s.place h) shape key) ∧
      s.contents (Handle.mustGet d h shape key w).2 = s.contents w ∧
      s.Serves (Handle.mustGet d h shape key w).2 := by
  obtain ⟨read, kept, serves'⟩ := s.get_computed h serves key shape
  rcases hg : Handle.get d h shape key w with ⟨result, w'⟩
  rw [hg] at read kept serves'
  rw [← read]
  simp only [Handle.mustGet, hg]
  cases result with
  | error f => exact ⟨rfl, kept, serves'⟩
  | ok found => cases found <;> exact ⟨rfl, kept, serves'⟩

theorem set_computed (value : Except String Json) (expiration : Option Nat) :
    (Handle.set d h key value expiration w).1 = storedOf h.name (s.place h) key value ∧
      s.contents (Handle.set d h key value expiration w).2 =
        afterSet (s.contents w) (s.place h) key value ∧
      s.Serves (Handle.set d h key value expiration w).2 := by
  cases value with
  | error message =>
    refine ⟨rfl, ?_, serves⟩
    cases s.place h <;> rfl
  | ok v =>
    cases hk : h.client with
    | none =>
      simp only [Handle.set, NamedStores.Handle.liveClient, place, hk, storedOf, afterSet,
        Option.map_none]
      exact ⟨trivial, trivial, serves⟩
    | some k =>
      obtain ⟨stored, kept, serves'⟩ := s.set k key v.octets expiration w serves
      simp only [Handle.set, NamedStores.Handle.liveClient, place, hk, storedOf, afterSet,
        Option.map_some]
      rw [stored]
      exact ⟨rfl, kept, serves'⟩

theorem delete_computed :
    (Handle.delete d h key w).1 = deletedOf (s.contents w) h.name (s.place h) key ∧
      s.contents (Handle.delete d h key w).2 = afterDelete (s.contents w) (s.place h) key ∧
      s.Serves (Handle.delete d h key w).2 := by
  cases hk : h.client with
  | none =>
    simp only [Handle.delete, NamedStores.Handle.liveClient, place, hk, deletedOf, afterDelete,
      Option.map_none]
    exact ⟨trivial, trivial, serves⟩
  | some k =>
    obtain ⟨count, kept, serves'⟩ := s.delete k key w serves
    simp only [Handle.delete, NamedStores.Handle.liveClient, place, hk, deletedOf, afterDelete,
      Option.map_some]
    rw [count]
    exact ⟨rfl, kept, serves'⟩

end MapServer

/-! ## Setting, then getting -/

section RoundTrip

variable {ω κ : Type}

/-- Whatever octets are set under a key, the client gives them back. -/
def StoresFaithfully (d : Driver ω κ) (k : κ) (expiration : Option Nat) (w : ω) : Prop :=
  ∀ key octets, ∃ w₁ w₂, d.set k key octets expiration w = (.ok (), w₁) ∧
    d.get k key w₁ = (.ok (some octets), w₂)

theorem MapServer.storesFaithfully {d : Driver ω κ} (s : MapServer d) (k : κ)
    (expiration : Option Nat) {w : ω} (serves : s.Serves w) :
    StoresFaithfully d k expiration w := by
  intro key octets
  obtain ⟨stored, kept, serves'⟩ := s.set k key octets expiration w serves
  obtain ⟨found, -⟩ := s.get k key _ serves'
  rw [kept, Contents.put_self] at found
  exact ⟨_, _, Prod.ext stored rfl, Prod.ext found rfl⟩

/-- **What was set is got back.** A connected handle whose client stores octets faithfully gives
back any value that was set, whatever its keys and texts, if its numbers are integers of 64 bits
and fewer than 128 containers are open in it at once: the reader takes the whole of its text, and
returns the value. -/
theorem set_then_get (d : Driver ω κ) (h : Handle κ) (connected : h.status = .connected)
    (expiration : Option Nat) (w : ω)
    (faithful : ∀ k, h.client = some k → StoresFaithfully d k expiration w) (key : String)
    (v : Json) (integral : v.Integral) (ordered : v.Ordered) (shallow : v.depth < 128) :
    let (stored, w₁) := Handle.set d h key (.ok v) expiration w
    let (got, _) := Handle.get d h .any key w₁
    stored = .ok () ∧ got = .ok (some v) ∧ Json.ofOctets v.octets = .ok v ∧
      Json.value (Json.fuelFor v.octets) 128 v.octets = .ok (v, []) := by
  obtain ⟨k, hk⟩ := Option.isSome_iff_exists.1 (NamedStores.Handle.status_connected.1 connected)
  obtain ⟨w₁, w₂, stored, found⟩ := faithful k hk key v.octets
  have live : h.liveClient = .ok k := by rw [NamedStores.Handle.liveClient, hk]
  simp only [Handle.set, Handle.get, live, stored, found,
    Json.ofOctetsAs_octets integral ordered shallow]
  exact ⟨rfl, trivial, Json.ofOctets_octets integral ordered shallow,
    Json.value_octets integral ordered shallow⟩

end RoundTrip

/-- Escapes in keys and texts, the least and the greatest integers, and empty containers. -/
def manifold : Json :=
  .object [
    ("\"\\", .array [.integer (-0x8000000000000000), .integer 0xFFFFFFFFFFFFFFFF, .array [],
      .object []]),
    ("\u00e9", .string "\t\u0001\u20ac")]

theorem manifold_integral : manifold.Integral := by
  refine .object fun e he => ?_
  rcases List.mem_cons.1 he with rfl | he
  · refine .array fun v hv => ?_
    simp only [List.mem_cons, List.not_mem_nil, or_false] at hv
    rcases hv with rfl | rfl | rfl | rfl
    · exact .integer _ (by decide) (by decide)
    · exact .integer _ (by decide) (by decide)
    · exact .array nofun
    · exact .object nofun
  · rw [List.mem_singleton.1 he]
    exact .string _

theorem manifold_ordered : manifold.Ordered := by
  refine .object (SortedMap.ordered_iff.2 (by decide)) fun e he => ?_
  rcases List.mem_cons.1 he with rfl | he
  · refine .array fun v hv => ?_
    simp only [List.mem_cons, List.not_mem_nil, or_false] at hv
    rcases hv with rfl | rfl | rfl | rfl
    · exact .integer _
    · exact .integer _
    · exact .array nofun
    · exact .object .nil nofun
  · rw [List.mem_singleton.1 he]
    exact .string _

/-- A handle after connecting to the server in memory, and the server. -/
def connectedCache : Handle Client × Server :=
  (NamedStores.Handle.connect Memory.driver.backend
    ⟨[("redis", .object [("cache", .object [("address", .string "localhost/3")])])]⟩
    (NamedStores.Handle.create "cache" ⟨false, false⟩ "redis" 0) Server.fresh).2

theorem manifold_got_back :
    let (stored, w₁) := Handle.set Memory.driver connectedCache.1 "key" (.ok manifold) none
      connectedCache.2
    let (got, _) := Handle.get Memory.driver connectedCache.1 .any "key" w₁
    stored = .ok () ∧ got = .ok (some manifold) ∧ Json.ofOctets manifold.octets = .ok manifold ∧
      Json.value (Json.fuelFor manifold.octets) 128 manifold.octets = .ok (manifold, []) :=
  set_then_get Memory.driver connectedCache.1 (by decide +kernel) none connectedCache.2
    (fun k _ => Memory.mapServer.storesFaithfully k none (by
      refine ⟨?_, ?_, ?_⟩ <;> decide +kernel)) "key" manifold manifold_integral manifold_ordered
    (by decide)

end KeyValue

end NamedStores
