/-
Any number of handles over one server that behaves as a map. Whatever sequence of requests the
handles get, and whatever someone else writes in between, each answer is the one computed on the
map, and the map changes only where a request that succeeded put or removed something: at the
key it names, in the database of its own handle.

The map and the places of the connected handles are a picture of the handles and the server.
One request takes the picture to the picture after it (`step_served`), and a run follows.
-/
import NamedStores.Proofs.KeyValue.MapServer
import NamedStores.Proofs.Registry.Life

namespace NamedStores.KeyValue

/-! ## Requests and answers -/

/-- What may happen to the handles `ι` and the server. -/
inductive Ask (ι : Type) where
  | set (i : ι) (key : String) (value : Except String Json) (expiration : Option Nat)
  | get (i : ι) (shape : Json.Shape) (key : String)
  | mustGet (i : ι) (shape : Json.Shape) (key : String)
  | delete (i : ι) (key : String)
  | connect (i : ι)
  | disconnect (i : ι)
  /-- Someone else writes octets under a key of a database. -/
  | write (n : Int) (key : String) (octets : Bytes)

inductive Answer where
  | done (r : Except Failure Unit)
  | read (r : Except Failure (Option Json))
  | demanded (r : Except Failure Json)
  | deleted (r : Except Failure Nat)

/-- Handles over one server. -/
structure Fleet (ω κ ι : Type) where
  handles : ι → Handle κ
  world : ω

variable {ω κ ι : Type} [DecidableEq ι] {d : Driver ω κ}

/-- A handle is put in its place after a step. -/
def Fleet.put (m : Fleet ω κ ι) (i : ι) (h : Handle κ) (w : ω) : Fleet ω κ ι :=
  ⟨fun j => if j = i then h else m.handles j, w⟩

theorem Fleet.put_self (m : Fleet ω κ ι) (i : ι) (h : Handle κ) (w : ω) :
    (m.put i h w).handles i = h :=
  if_pos rfl

theorem Fleet.put_other (m : Fleet ω κ ι) {i j : ι} (other : j ≠ i) (h : Handle κ) (w : ω) :
    (m.put i h w).handles j = m.handles j :=
  if_neg other

namespace MapServer

/-- One request: its answer, and the handles and the server after it. -/
def step [Url.HostNames] (s : MapServer d) (c : Configuration) (m : Fleet ω κ ι) :
    Ask ι → Answer × Fleet ω κ ι
  | .set i key value expiration =>
    let (r, w) := Handle.set d (m.handles i) key value expiration m.world
    (.done r, { m with world := w })
  | .get i shape key =>
    let (r, w) := Handle.get d (m.handles i) shape key m.world
    (.read r, { m with world := w })
  | .mustGet i shape key =>
    let (r, w) := Handle.mustGet d (m.handles i) shape key m.world
    (.demanded r, { m with world := w })
  | .delete i key =>
    let (r, w) := Handle.delete d (m.handles i) key m.world
    (.deleted r, { m with world := w })
  | .connect i =>
    let h := m.handles i
    let (r, h', w) := h.connect d.backend c m.world
    (.done (r.mapError (·.failure h.name h.policy.must)), m.put i h' w)
  | .disconnect i =>
    let h := m.handles i
    let (r, h', w) := h.disconnect d.backend m.world
    (.done (r.mapError (·.failure h.name h.policy.must)), m.put i h' w)
  | .write n key octets => (.done (.ok ()), { m with world := s.write n key octets m.world })

/-- A run: each request with its answer, and the handles and the server in the end. -/
def run [Url.HostNames] (s : MapServer d) (c : Configuration) :
    Fleet ω κ ι → List (Ask ι) → List (Ask ι × Answer) × Fleet ω κ ι
  | m, [] => ([], m)
  | m, ask :: asks =>
    let (answer, m₁) := s.step c m ask
    let (history, m') := s.run c m₁ asks
    ((ask, answer) :: history, m')

end MapServer

/-! ## The same on the map -/

/-- The map, and for each handle the database it works on while it is connected. -/
structure Picture (ι : Type) where
  map : Contents
  place : ι → Option Int

/-- The handles: their names, and the databases that their settings name. -/
structure Roster (ι : Type) where
  name : ι → String
  own : ι → Option Int

namespace Roster

variable (r : Roster ι)

/-- The answer as it is computed on the map. Whether a client can be had, and whether it closes,
is not for the map to say; a handle with a client needs none, and without one has none to close. -/
def Answers (a : Picture ι) : Ask ι → Answer → Prop
  | .set i key value _, answer => answer = .done (storedOf (r.name i) (a.place i) key value)
  | .get i shape key, answer => answer = .read (readOf a.map (r.name i) (a.place i) shape key)
  | .mustGet i shape key, answer => answer =
      .demanded (demanded (r.name i) key (readOf a.map (r.name i) (a.place i) shape key))
  | .delete i key, answer => answer = .deleted (deletedOf a.map (r.name i) (a.place i) key)
  | .connect i, answer => ∃ result, answer = .done result ∧
      ((a.place i).isSome → result = .ok ()) ∧ (result = .ok () → (r.own i).isSome)
  | .disconnect i, answer => ∃ result, answer = .done result ∧
      (a.place i = none → result = .ok ())
  | .write _ _ _, answer => answer = .done (.ok ())

/-- The picture after a request and its answer. -/
def next (a : Picture ι) : Ask ι → Answer → Picture ι
  | .set i key value _, _ => { a with map := afterSet a.map (a.place i) key value }
  | .delete i key, _ => { a with map := afterDelete a.map (a.place i) key }
  | .connect i, .done (.ok _) => { a with place := fun j => if j = i then r.own i else a.place j }
  | .disconnect i, .done (.ok _) => { a with place := fun j => if j = i then none else a.place j }
  | .write n key octets, _ => { a with map := a.map.put n key (some octets) }
  | _, _ => a

/-- A set or a delete that succeeded touches its key in the database of its own handle. -/
def Touches : Ask ι → Answer → Int → String → Prop
  | .set i key _ _, .done (.ok _), n, key' => r.own i = some n ∧ key' = key
  | .delete i key, .deleted (.ok _), n, key' => r.own i = some n ∧ key' = key
  | .write n key _, _, n', key' => n' = n ∧ key' = key
  | _, _, _, _ => False

/-- A request was served: answered from the map, and nothing but what it touches has changed. -/
structure Served (a : Picture ι) (ask : Ask ι) (answer : Answer) (a' : Picture ι) : Prop where
  answers : r.Answers a ask answer
  next : a' = r.next a ask answer
  only : ∀ n key, a'.map n key ≠ a.map n key → r.Touches ask answer n key

/-- One request after the other was served. -/
inductive Follows : Picture ι → List (Ask ι × Answer) → Picture ι → Prop
  | nil (a : Picture ι) : Follows a [] a
  | cons {a a₁ a' : Picture ι} {ask : Ask ι} {answer : Answer}
      {history : List (Ask ι × Answer)} : r.Served a ask answer a₁ → Follows a₁ history a' →
      Follows a ((ask, answer) :: history) a'

/-- While a handle is connected, it works on its own database. -/
def Placed (a : Picture ι) : Prop := ∀ i n, a.place i = some n → r.own i = some n

/-- The map changes only where a request touches it. -/
theorem touches_of_next {a : Picture ι} (placed : r.Placed a) {ask : Ask ι} {answer : Answer}
    (answers : r.Answers a ask answer) {n : Int} {key : String}
    (changed : (r.next a ask answer).map n key ≠ a.map n key) : r.Touches ask answer n key := by
  cases ask with
  | set i key' value expiration =>
    rw [show answer = _ from answers]
    cases hp : a.place i with
    | none => simp only [next, hp, afterSet, ne_eq, not_true_eq_false] at changed
    | some place =>
      cases value with
      | error message => simp only [next, hp, afterSet, ne_eq, not_true_eq_false] at changed
      | ok v =>
        simp only [next, hp, afterSet] at changed
        obtain ⟨rfl, rfl⟩ := Contents.eq_of_put_ne changed
        exact ⟨placed i n hp, rfl⟩
  | delete i key' =>
    rw [show answer = _ from answers]
    cases hp : a.place i with
    | none => simp only [next, hp, afterDelete, ne_eq, not_true_eq_false] at changed
    | some place =>
      simp only [next, hp, afterDelete] at changed
      obtain ⟨rfl, rfl⟩ := Contents.eq_of_put_ne changed
      exact ⟨placed i n hp, rfl⟩
  | write n' key' octets => exact Contents.eq_of_put_ne changed
  | get i shape key' => exact absurd rfl changed
  | mustGet i shape key' => exact absurd rfl changed
  | connect i =>
    obtain ⟨result, rfl, -⟩ := answers
    cases result <;> exact absurd rfl changed
  | disconnect i =>
    obtain ⟨result, rfl, -⟩ := answers
    cases result <;> exact absurd rfl changed

theorem Served.of_next {a a' : Picture ι} (placed : r.Placed a) {ask : Ask ι} {answer : Answer}
    (answers : r.Answers a ask answer) (next : a' = r.next a ask answer) :
    r.Served a ask answer a' where
  answers := answers
  next := next
  only _ _ changed := r.touches_of_next placed answers (next ▸ changed)

end Roster

/-! ## One request -/

/-- The database that a handle's settings name: those it has, or else those of its record. -/
def ownDatabase [Url.HostNames] (d : Driver ω κ) (c : Configuration) (h : Handle κ) : Option Int :=
  (h.configure d.backend c h.sectionName).toOption.map (·.1.database)

theorem ownDatabase_congr [Url.HostNames] {c : Configuration} {h h' : Handle κ}
    (name : h'.name = h.name)
    (part : h'.sectionName = h.sectionName) (settings : h'.settings = h.settings) :
    ownDatabase d c h' = ownDatabase d c h := by
  simp only [ownDatabase, NamedStores.Handle.configure, name, part, settings]
  cases h.settings with
  | some _ => rfl
  | none =>
    dsimp only
    cases c.record h.sectionName h.name with
    | error _ => rfl
    | ok record =>
      dsimp only
      cases d.backend.readSettings record <;> rfl

theorem ownDatabase_of_settings [Url.HostNames] {c : Configuration} {h : Handle κ}
    {settings : Settings}
    (hs : h.settings = some settings) : ownDatabase d c h = some settings.database := by
  rw [ownDatabase, NamedStores.Handle.configure_of_settings hs]
  rfl

/-- Settings that were taken name the database they named as they were read. -/
theorem ownDatabase_of_configures [Url.HostNames] {c : Configuration} {h h' : Handle κ}
    {settings : Settings}
    (hc : NamedStores.Handle.Configures d.backend c h.sectionName h settings h') :
    ownDatabase d c h = some settings.database := by
  rcases hc with ⟨hs, -⟩ | ⟨missing, ⟨record, found, read⟩, -⟩
  · exact ownDatabase_of_settings hs
  · simp only [ownDatabase, NamedStores.Handle.configure, missing, found, read, Except.toOption,
      Option.map_some]

namespace MapServer

variable (s : MapServer d)

theorem openClient_keeps [Url.HostNames] {settings : Settings} {w w' : ω} (serves : s.Serves w)
    {result : Except Refusal κ}
    (he : NamedStores.Handle.openClient d.backend settings w = (result, w')) :
    s.contents w' = s.contents w ∧ s.Serves w' ∧
      ∀ k, result = .ok k → s.index k = settings.database := by
  obtain ⟨kept, serves₁, index⟩ := s.connect settings w serves
  rcases hc : d.connect settings w with ⟨opened, w₁⟩
  rw [hc] at kept serves₁ index
  cases opened with
  | error message =>
    simp only [NamedStores.Handle.openClient, Driver.backend, hc] at he
    cases he
    exact ⟨kept, serves₁, nofun⟩
  | ok k =>
    obtain ⟨kept₂, serves₂⟩ := s.ping k w₁ serves₁
    rcases hp : d.ping k w₁ with ⟨answered, w₂⟩
    rw [hp] at kept₂ serves₂
    cases answered with
    | error message =>
      simp only [NamedStores.Handle.openClient, Driver.backend, hc, hp, NamedStores.Handle.mapError_ok,
        NamedStores.Handle.mapError_error] at he
      cases he
      obtain ⟨kept₃, serves₃⟩ := s.close k w₂ serves₂
      exact ⟨kept₃.trans (kept₂.trans kept), serves₃, nofun⟩
    | ok u =>
      simp only [NamedStores.Handle.openClient, Driver.backend, hc, hp, NamedStores.Handle.mapError_ok] at he
      cases he
      refine ⟨kept₂.trans kept, serves₂, fun k' same => ?_⟩
      cases same
      exact index k rfl

/-- What connecting can do: nothing, or fail and leave the handle without a client, or get it a
client of its own database. The map stays, and so does the database that the handle names. -/
theorem connect_keeps [Url.HostNames] {c : Configuration} {h h' : Handle κ} {w w' : ω}
    (serves : s.Serves w)
    {result : Except Trouble Unit} (he : h.connect d.backend c w = (result, h', w')) :
    s.contents w' = s.contents w ∧ s.Serves w' ∧ ownDatabase d c h' = ownDatabase d c h ∧
      ((result = .ok () ∧ h' = h ∧ h.client.isSome) ∨
        (h.client = none ∧ (∃ e, result = .error e) ∧ h'.client = none) ∨
        (h.client = none ∧ result = .ok () ∧
          ∃ k, h'.client = some k ∧ ownDatabase d c h = some (s.index k))) := by
  rcases NamedStores.Handle.connect_cases he with
    ⟨held, rfl, rfl, rfl⟩ | ⟨none, e, -, rfl, rfl, rfl⟩ | ⟨none, settings, refusal, hc, ho, rfl⟩ |
    ⟨none, settings, h₁, k, hc, ho, rfl, rfl⟩
  · exact ⟨rfl, serves, rfl, .inl ⟨rfl, rfl, held⟩⟩
  · exact ⟨rfl, serves, rfl, .inr (.inl ⟨none, ⟨_, rfl⟩, none⟩)⟩
  · obtain ⟨kept, serves', -⟩ := s.openClient_keeps serves ho
    refine ⟨kept, serves', ?_, .inr (.inl ⟨none, ⟨_, rfl⟩, ?_⟩)⟩
    · rw [ownDatabase_of_settings hc.settings, ownDatabase_of_configures hc]
    · rcases hc with ⟨-, rfl⟩ | ⟨-, -, rfl⟩ <;> exact none
  · obtain ⟨kept, serves', index⟩ := s.openClient_keeps serves ho
    have own := ownDatabase_of_configures hc
    have own' : ownDatabase d c { h₁ with client := some k, connectedAt := some (d.backend.now w') }
        = some settings.database := ownDatabase_of_settings hc.settings
    exact ⟨kept, serves', own'.trans own.symm,
      .inr (.inr ⟨none, rfl, k, rfl, by rw [own, index k rfl]⟩)⟩

theorem disconnect_keeps [Url.HostNames] {c : Configuration} {h h' : Handle κ} {w w' : ω}
    (serves : s.Serves w)
    {result : Except Trouble Unit} (he : h.disconnect d.backend w = (result, h', w')) :
    s.contents w' = s.contents w ∧ s.Serves w' ∧ ownDatabase d c h' = ownDatabase d c h ∧
      ((result = .ok () ∧ h'.client = none) ∨
        (∃ e, result = .error e) ∧ h' = h ∧ h.client.isSome) := by
  rcases NamedStores.Handle.disconnect_cases he with
    ⟨none, rfl, rfl, rfl⟩ | ⟨k, held, ⟨message, hc, rfl, rfl⟩ | ⟨hc, rfl, rfl⟩⟩
  · exact ⟨rfl, serves, rfl, .inl ⟨rfl, none⟩⟩
  · obtain ⟨kept, serves'⟩ := s.close k w serves
    have world : w' = (d.close k w).2 := (congrArg Prod.snd hc).symm
    exact ⟨world ▸ kept, world ▸ serves', rfl, .inr ⟨⟨_, rfl⟩, rfl, by rw [held]; rfl⟩⟩
  · obtain ⟨kept, serves'⟩ := s.close k w serves
    have world : w' = (d.close k w).2 := (congrArg Prod.snd hc).symm
    exact ⟨world ▸ kept, world ▸ serves', ownDatabase_congr rfl rfl rfl, .inl ⟨rfl, rfl⟩⟩

/-- The map, and where the connected handles work. -/
def picture (m : Fleet ω κ ι) : Picture ι := ⟨s.contents m.world, fun i => s.place (m.handles i)⟩

end MapServer

/-- The names of the handles, and the databases that their settings name. -/
def roster [Url.HostNames] (d : Driver ω κ) (c : Configuration) (m : Fleet ω κ ι) : Roster ι :=
  ⟨fun i => (m.handles i).name, fun i => ownDatabase d c (m.handles i)⟩

namespace MapServer

variable (s : MapServer d)

/-- The picture after a handle was put in its place. -/
theorem picture_put (m : Fleet ω κ ι) (i : ι) (h : Handle κ) {w : ω}
    (kept : s.contents w = s.contents m.world) : s.picture (m.put i h w) =
      { s.picture m with place := fun j => if j = i then s.place h else (s.picture m).place j } := by
  have world : s.contents (m.put i h w).world = s.contents m.world := kept
  rw [picture, world]
  congr 1
  funext j
  by_cases same : j = i
  · rw [same, Fleet.put_self, if_pos rfl]
  · rw [Fleet.put_other m same, if_neg same]
    rfl

/-- What holds between requests: the server serves, the roster stays, and a connected handle
works on its own database. -/
structure Attached [Url.HostNames] (c : Configuration) (r : Roster ι) (m : Fleet ω κ ι) : Prop where
  serves : s.Serves m.world
  roster : roster d c m = r
  placed : r.Placed (s.picture m)

namespace Attached

variable [Url.HostNames] {s} {c : Configuration} {r : Roster ι} {m : Fleet ω κ ι}

omit [DecidableEq ι] in
/-- A request that leaves the handles as they are leaves them attached. -/
theorem of_world (attached : s.Attached c r m) {w : ω} (serves : s.Serves w) :
    s.Attached c r { m with world := w } :=
  ⟨serves, attached.roster, attached.placed⟩

omit [DecidableEq ι] in
theorem name (attached : s.Attached c r m) (i : ι) : (m.handles i).name = r.name i :=
  congrFun (congrArg Roster.name attached.roster) i

omit [DecidableEq ι] in
theorem own (attached : s.Attached c r m) (i : ι) : ownDatabase d c (m.handles i) = r.own i :=
  congrFun (congrArg Roster.own attached.roster) i

/-- A handle is put in its place with its name and its own database. -/
theorem put (attached : s.Attached c r m) {i : ι} {h : Handle κ} {w : ω} (serves : s.Serves w)
    (name : h.name = (m.handles i).name)
    (own : ownDatabase d c h = ownDatabase d c (m.handles i))
    (placed : ∀ n, s.place h = some n → r.own i = some n) : s.Attached c r (m.put i h w) where
  serves := serves
  roster := by
    rw [← attached.roster, KeyValue.roster, KeyValue.roster]
    congr 1 <;> funext j <;> by_cases same : j = i
    · rw [same, Fleet.put_self, name]
    · rw [Fleet.put_other m same]
    · rw [same, Fleet.put_self, own]
    · rw [Fleet.put_other m same]
  placed := by
    intro j n (hj : s.place ((m.put i h w).handles j) = some n)
    by_cases same : j = i
    · subst same
      rw [Fleet.put_self] at hj
      exact placed n hj
    · rw [Fleet.put_other m same] at hj
      exact attached.placed j n hj

/-- A request on the data is served if its answer and the map after it are the computed ones. -/
theorem served {α : Type} (attached : s.Attached c r m) {ask : Ask ι} (answer : α → Answer)
    {o : α × ω} {result : α} {map : Contents}
    (computed : o.1 = result ∧ s.contents o.2 = map ∧ s.Serves o.2)
    (answers : r.Answers (s.picture m) ask (answer result))
    (next : r.next (s.picture m) ask (answer result) = ⟨map, (s.picture m).place⟩) :
    r.Served (s.picture m) ask (answer o.1) (s.picture { m with world := o.2 }) ∧
      s.Attached c r { m with world := o.2 } := by
  obtain ⟨rfl, rfl, serves⟩ := computed
  exact ⟨.of_next r attached.placed answers next.symm, attached.of_world serves⟩

/-- A request that gets a handle a client, or takes it, is served if its answer is the computed one
and the handle then works where it is to work. -/
theorem served_put (attached : s.Attached c r m) {ask : Ask ι} {answer : Answer} {i : ι}
    {h : Handle κ} {w : ω} (kept : s.contents w = s.contents m.world) (serves : s.Serves w)
    (name : h.name = (m.handles i).name)
    (own : ownDatabase d c h = ownDatabase d c (m.handles i))
    (placed : ∀ n, s.place h = some n → r.own i = some n)
    (answers : r.Answers (s.picture m) ask answer)
    (next : r.next (s.picture m) ask answer = { s.picture m with
      place := fun j => if j = i then s.place h else (s.picture m).place j }) :
    r.Served (s.picture m) ask answer (s.picture (m.put i h w)) ∧ s.Attached c r (m.put i h w) :=
  ⟨.of_next r attached.placed answers ((s.picture_put m i h kept).trans next.symm),
    attached.put serves name own placed⟩

end Attached

/-- A handle that stays where it is leaves the picture as it is. -/
theorem picture_same (m : Fleet ω κ ι) {i : ι} {h : Handle κ}
    (same : s.place h = s.place (m.handles i)) : s.picture m = { s.picture m with
      place := fun j => if j = i then s.place h else (s.picture m).place j } := by
  have places : (s.picture m).place =
      fun j => if j = i then s.place h else (s.picture m).place j := by
    funext j
    split
    · next here => rw [same, here]; rfl
    · rfl
  rw [← places]

/-- **Each request is served from the map.** -/
theorem step_served [Url.HostNames] {c : Configuration} {r : Roster ι} {m : Fleet ω κ ι}
    (attached : s.Attached c r m) (ask : Ask ι) :
    r.Served (s.picture m) ask (s.step c m ask).1 (s.picture (s.step c m ask).2) ∧
      s.Attached c r (s.step c m ask).2 := by
  cases ask with
  | set i key value expiration =>
    have computed := s.set_computed (m.handles i) attached.serves key value expiration
    rw [attached.name] at computed
    exact attached.served .done computed rfl rfl
  | get i shape key =>
    have computed := s.get_computed (m.handles i) attached.serves key shape
    rw [attached.name] at computed
    exact attached.served .read computed rfl rfl
  | mustGet i shape key =>
    have computed := s.mustGet_computed (m.handles i) attached.serves key shape
    rw [attached.name] at computed
    exact attached.served .demanded computed rfl rfl
  | delete i key =>
    have computed := s.delete_computed (m.handles i) attached.serves key
    rw [attached.name] at computed
    exact attached.served .deleted computed rfl rfl
  | connect i =>
    rcases he : (m.handles i).connect d.backend c m.world with ⟨result, h', w⟩
    obtain ⟨kept, serves, own, outcome⟩ := s.connect_keeps attached.serves he
    have name := (NamedStores.Handle.connect_evolves he).name
    simp only [step, he]
    rcases outcome with ⟨rfl, rfl, held⟩ | ⟨none, ⟨e, rfl⟩, none'⟩ | ⟨none, rfl, k, client, named⟩
    · obtain ⟨k, hk⟩ := Option.isSome_iff_exists.1 held
      have place := s.place_client hk
      have named : r.own i = some (s.index k) := attached.placed i _ place
      refine attached.served_put kept serves name own (fun n hn => attached.placed i n hn)
        ⟨_, rfl, fun _ => rfl, fun _ => by rw [named]; rfl⟩ ?_
      rw [place, ← named]
      rfl
    · have place := s.place_none none
      have place' := s.place_none none'
      refine attached.served_put kept serves name own (fun n hn => by rw [place'] at hn; cases hn)
        ⟨_, rfl, fun some => ?_, nofun⟩ (s.picture_same m (place'.trans place.symm))
      rw [show (s.picture m).place i = _ from place] at some
      cases some
    · have place' := s.place_client client
      have named' : r.own i = some (s.index k) := (attached.own i).symm.trans named
      refine attached.served_put kept serves name own (fun n hn => by rw [named', ← place', hn])
        ⟨_, rfl, fun _ => rfl, fun _ => by rw [named']; rfl⟩ ?_
      rw [place', ← named']
      rfl
  | disconnect i =>
    rcases he : (m.handles i).disconnect d.backend m.world with ⟨result, h', w⟩
    obtain ⟨kept, serves, own, outcome⟩ := s.disconnect_keeps attached.serves he
    have name := (NamedStores.Handle.disconnect_evolves he).name
    simp only [step, he]
    rcases outcome with ⟨rfl, none'⟩ | ⟨⟨e, rfl⟩, rfl, held⟩
    · have place' := s.place_none none'
      refine attached.served_put kept serves name own (fun n hn => by rw [place'] at hn; cases hn)
        ⟨_, rfl, fun _ => rfl⟩ ?_
      rw [place']
      rfl
    · refine attached.served_put kept serves name own (fun n hn => attached.placed i n hn)
        ⟨_, rfl, fun none => ?_⟩ (s.picture_same m rfl)
      obtain ⟨k, hk⟩ := Option.isSome_iff_exists.1 held
      cases (s.place_client hk).symm.trans none
  | write n key octets =>
    have computed := s.written n key octets m.world attached.serves
    exact attached.served .done (o := (.ok (), _)) ⟨rfl, computed⟩ rfl rfl

theorem run_follows [Url.HostNames] {c : Configuration} {r : Roster ι} (asks : List (Ask ι)) :
    ∀ {m : Fleet ω κ ι}, s.Attached c r m →
      r.Follows (s.picture m) (s.run c m asks).1 (s.picture (s.run c m asks).2) := by
  induction asks with
  | nil => exact fun _ => .nil _
  | cons ask asks ih =>
    intro m attached
    obtain ⟨served, attached'⟩ := s.step_served attached ask
    exact .cons served (ih attached')

end MapServer

theorem MapServer.run_asks [Url.HostNames] (s : MapServer d) (c : Configuration)
    (asks : List (Ask ι)) :
    ∀ m : Fleet ω κ ι, (s.run c m asks).1.map (·.1) = asks := by
  induction asks with
  | nil => exact fun _ => rfl
  | cons ask asks ih => exact fun m => congrArg (ask :: ·) (ih _)

/-- **All handles work on one map.** From handles that are not connected, over a server that
behaves as a map, every request of a run is answered from the map as it is then, and changes it
only if it succeeds, and only at its key in the database of its own handle. -/
theorem handles_share_one_map [Url.HostNames] (s : MapServer d) (c : Configuration)
    (m : Fleet ω κ ι)
    (unconnected : ∀ i, (m.handles i).status ≠ .connected) (serves : s.Serves m.world)
    (asks : List (Ask ι)) :
    let (history, m') := s.run c m asks
    history.map (·.1) = asks ∧
      (roster d c m).Follows ⟨s.contents m.world, fun _ => none⟩ history (s.picture m') := by
  have nowhere (i : ι) : s.place (m.handles i) = none := by
    have none := mt NamedStores.Handle.status_connected.2 (unconnected i)
    rw [Bool.not_eq_true, Option.isSome_eq_false_iff, Option.isNone_iff_eq_none] at none
    exact s.place_none none
  have start : s.picture m = ⟨s.contents m.world, fun _ => none⟩ := by
    rw [MapServer.picture]
    exact congrArg _ (funext nowhere)
  have attached : s.Attached c (roster d c m) m :=
    ⟨serves, rfl, fun i n hn => by rw [start] at hn; cases hn⟩
  have follows := s.run_follows asks attached
  rw [start] at follows
  exact ⟨s.run_asks c asks m, follows⟩

/-- Two stores of one server, in two of its databases. -/
def twoDatabases : Configuration :=
  ⟨[("redis", .object [
    ("cache", .object [("address", .string "localhost")]),
    ("sessions", .object [("address", .string "localhost"), ("database_index", .integer 7)])])]⟩

def twoHandles : Fleet Server Client Bool :=
  ⟨fun second => NamedStores.Handle.create (if second then "sessions" else "cache") ⟨false, false⟩
    "redis" 0, Server.fresh⟩

/-- One key in both databases, octets that are no JSON, and a handle that is not connected. -/
def twoHandlesAsks : List (Ask Bool) :=
  [.connect false, .set false "k" (.ok (.integer 1)) none, .mustGet true .any "k", .connect true,
    .get true .any "k", .set true "k" (.ok (.string "two")) (some 5), .write 0 "k" [0xFF],
    .get false .any "k", .delete true "k", .mustGet true .any "k", .disconnect true,
    .set true "k" (.error "key must be a string") none]

theorem two_handles_share_one_map :
    (∀ i, (twoHandles.handles i).status ≠ .connected) ∧
      Memory.mapServer.Serves twoHandles.world ∧
      let (history, m') := Memory.mapServer.run twoDatabases twoHandles twoHandlesAsks
      history.map (·.1) = twoHandlesAsks ∧
        (roster Memory.driver twoDatabases twoHandles).Follows
          ⟨Memory.mapServer.contents twoHandles.world, fun _ => none⟩ history
          (Memory.mapServer.picture m') := by
  have unconnected : ∀ i, (twoHandles.handles i).status ≠ .connected := fun _ => nofun
  have serves : Memory.mapServer.Serves twoHandles.world := ⟨rfl, rfl, rfl⟩
  exact ⟨unconnected, serves, handles_share_one_map Memory.mapServer twoDatabases twoHandles
    unconnected serves twoHandlesAsks⟩

/-- That JSON cannot hold a value is found out before a client is asked for, so a handle that is
not connected does not say so. -/
theorem unencodable_found_before_unconnected :
    (twoHandles.handles false).status ≠ .connected ∧
      (Handle.set Memory.driver (twoHandles.handles false) "k" (.error "key must be a string") none
        twoHandles.world).1 = .error (.serialization "cache" "k" "key must be a string") ∧
      (Handle.set Memory.driver (twoHandles.handles false) "k" (.error "key must be a string") none
        twoHandles.world).1 ≠ .error (.notConnected "cache") :=
  ⟨nofun, rfl, nofun⟩

end NamedStores.KeyValue
