/-
Disconnecting all handles of a registry. All it asks of the stores is to close the clients that
the handles hold, one after the other in the order of the names; `closeAll` says that over the
clients alone. Each handle before the first client that does not close is let go, the one that
holds it and those after it stay as they were, and so disconnecting again goes on from there.
-/
import NamedStores.KeyValue.Memory
import NamedStores.Proofs.Registry.Life

namespace NamedStores.Registry

variable {ω σ κ ο : Type}

/-! ## The clients that are held -/

/-- The clients that handles hold, in the order of the handles. -/
def clients (hs : List (String × Handle σ κ)) : List κ := hs.filterMap (·.2.client)

/-- Closes clients one after the other, up to the first that does not close. -/
def closeAll (b : Backend ω σ κ) : List κ → ω → Except String Unit × ω
  | [], w => (.ok (), w)
  | client :: rest, w =>
    match b.close client w with
    | (.error message, w) => (.error message, w)
    | (.ok _, w) => closeAll b rest w

theorem clients_cons (p : String × Handle σ κ) (hs : List (String × Handle σ κ)) :
    clients (p :: hs) = p.2.client.toList ++ clients hs := by
  cases hk : p.2.client <;> simp [clients, hk]

theorem clients_append (hs hs' : List (String × Handle σ κ)) :
    clients (hs ++ hs') = clients hs ++ clients hs' := List.filterMap_append

theorem closeAll_append {b : Backend ω σ κ} {closed : List κ} (rest : List κ) {w w' : ω}
    (h : closeAll b closed w = (.ok (), w')) :
    closeAll b (closed ++ rest) w = closeAll b rest w' := by
  induction closed generalizing w with
  | nil =>
    cases h
    rfl
  | cons client closed ih =>
    rw [List.cons_append, closeAll]
    rw [closeAll] at h
    split at h
    · cases h
    · exact ih h

theorem closeAll_error {b : Backend ω σ κ} {client : κ} (rest : List κ) {w w' : ω}
    {message : String} (h : b.close client w = (.error message, w')) :
    closeAll b (client :: rest) w = (.error message, w') := by
  rw [closeAll, h]

/-! ## One handle -/

/-- A handle before and after it was let go: it holds no client, and else it is as it was. -/
def Released (h h' : Handle σ κ) : Prop :=
  h' = { h with client := none, connectedAt := none }

theorem Released.status {h h' : Handle σ κ} (hr : Released h h') : h'.status ≠ .connected := by
  intro connected
  rw [hr, Handle.status_connected] at connected
  cases connected

theorem Released.trans {h h' h'' : Handle σ κ} (first : Released h h' ∨ h' = h)
    (second : Released h' h'') : Released h h'' := by
  rcases first with released | same
  · rw [Released, second, released]
  · rw [← same]
    exact second

theorem disconnectStep_ok {b : Backend ω σ κ} {h h' : Handle σ κ} {w w' : ω}
    (hw : Handle.WellKept h) (he : disconnectStep b h w = (.ok (), h', w')) :
    Released h h' ∧ closeAll b h.client.toList w = (.ok (), w') := by
  rcases disconnectStep_cases he with ⟨hk, -, rfl, rfl⟩ | ⟨client, hk, failed | ⟨closed, -, same⟩⟩
  · -- A handle without a client has no time of connecting either.
    have time : h'.connectedAt = none := by
      have both := hw.connectedAt_iff
      rw [hk] at both
      simpa using both
    refine ⟨?_, by rw [hk]; rfl⟩
    rw [Released, ← hk, ← time]
  · obtain ⟨message, -, -, wrong⟩ := failed
    cases wrong
  · refine ⟨same, ?_⟩
    simp only [hk, Option.toList_some, closeAll, closed]

theorem disconnectStep_error {b : Backend ω σ κ} {h h' : Handle σ κ} {w w' : ω} {stop : Stop}
    (he : disconnectStep b h w = (.error stop, h', w')) :
    h' = h ∧ ∃ client message, h.client = some client ∧
      b.close client w = (.error message, w') ∧
      stop = .handle h.name h.policy.must (.unclosed message) false := by
  rcases disconnectStep_cases he with ⟨-, wrong, -⟩ | ⟨client, hk, failed | ⟨-, wrong, -⟩⟩
  · cases wrong
  · obtain ⟨message, refused, same, reason⟩ := failed
    cases reason
    exact ⟨same, client, message, hk, refused, rfl⟩
  · cases wrong

theorem disconnectStep_idle (b : Backend ω σ κ) {h : Handle σ κ} (hk : h.client = none) (w : ω) :
    disconnectStep b h w = (.ok (), h, w) := by
  simp only [disconnectStep, Handle.disconnect, hk]

/-! ## All handles -/

theorem Visits.released {b : Backend ω σ κ} {hs hs' : List (String × Handle σ κ)} {w w' : ω}
    (hw : ∀ p ∈ hs, Handle.WellKept p.2) (hv : Visits (disconnectStep b) hs w hs' w') :
    InPlace Released hs hs' ∧ closeAll b (clients hs) w = (.ok (), w') := by
  refine ⟨hv.inPlace (fun h h' _ _ kept made => (disconnectStep_ok kept made).1) hw, ?_⟩
  induction hv with
  | nil => rfl
  | cons made _ ih =>
    have closed := (disconnectStep_ok (hw _ List.mem_cons_self) made).2
    rw [clients_cons, closeAll_append _ closed]
    exact ih fun p hp => hw p (List.mem_cons_of_mem _ hp)

/-- How far a bulk disconnect came: past all handles, or to the first whose client did not close.
The clients closed until then are those of the handles before it. -/
def DisconnectsUpTo (b : Backend ω σ κ) (hs hs' : List (String × Handle σ κ)) (w w' : ω) :
    Except Failure Unit → Prop
  | .ok _ => InPlace Released hs hs' ∧ closeAll b (clients hs) w = (.ok (), w')
  | .error f => ∃ before before' name h client after w₁ message,
      hs = before ++ (name, h) :: after ∧ hs' = before' ++ (name, h) :: after ∧
      InPlace Released before before' ∧ closeAll b (clients before) w = (.ok (), w₁) ∧
      h.status = .connected ∧ h.client = some client ∧
      b.close client w₁ = (.error message, w') ∧ f = .operation h.name "" s!"CLOSE: {message}"

theorem disconnectAll_upTo {b : Backend ω σ κ} {r r' : Registry σ κ}
    (hw : ∀ p ∈ r.handles, Handle.WellKept p.2) {w w' : ω} {result : Except Stop Unit}
    (he : r.disconnectAll b w = (result, r', w')) :
    DisconnectsUpTo b r.handles r'.handles w w' (result.mapError Stop.failure) ∧
      r'.names = r.names ∧ r' = { r with handles := r'.handles } := by
  rcases hv : visit (disconnectStep b) r.handles w with ⟨result', hs, w₁⟩
  simp only [disconnectAll, hv] at he
  cases he
  refine ⟨?_, visit_keys hv, rfl⟩
  rcases visit_cases hv with ⟨rfl, visited⟩ |
    ⟨stop, before, before', name, h, h', after, w₂, rfl, parts, rfl, visited, failed⟩
  · exact visited.released hw
  · obtain ⟨rfl, client, message, hk, refused, rfl⟩ := disconnectStep_error failed
    have kept : ∀ p ∈ before, Handle.WellKept p.2 := by
      intro p hp
      refine hw p ?_
      rw [parts]
      exact List.mem_append_left _ hp
    obtain ⟨released, closed⟩ := visited.released kept
    exact ⟨before, before', name, h', client, after, w₂, message, parts, rfl, released, closed,
      Handle.status_connected.2 (by rw [hk]; rfl), hk, refused, rfl⟩

/-- A bulk disconnect goes well exactly when the clients close, and does no more than close them. -/
theorem DisconnectsUpTo.closeAll_eq {b : Backend ω σ κ} {hs hs' : List (String × Handle σ κ)}
    {w w' : ω} {result : Except Failure Unit} (h : DisconnectsUpTo b hs hs' w w' result) :
    (closeAll b (clients hs) w).2 = w' ∧
      ((closeAll b (clients hs) w).1 = .ok () ↔ result = .ok ()) := by
  cases result with
  | ok _ =>
    rw [h.2]
    exact ⟨rfl, iff_of_true rfl rfl⟩
  | error f =>
    obtain ⟨before, _, name, h, client, after, _, message, rfl, -, -, closed, -, hk, refused, -⟩ := h
    have all : closeAll b (clients (before ++ (name, h) :: after)) w = (.error message, w') := by
      rw [clients_append, closeAll_append _ closed, clients_cons, hk]
      exact closeAll_error _ refused
    rw [all]
    refine ⟨rfl, iff_of_false ?_ ?_⟩ <;> intro wrong <;> cases wrong

/-- What a bulk disconnect leaves in each place: a handle let go, or the handle that was there. -/
theorem DisconnectsUpTo.inPlace {b : Backend ω σ κ} {hs hs' : List (String × Handle σ κ)}
    {w w' : ω} {result : Except Failure Unit} (h : DisconnectsUpTo b hs hs' w w' result) :
    InPlace (fun h h' => Released h h' ∨ h' = h) hs hs' := by
  have released {hs hs' : List (String × Handle σ κ)} (h : InPlace Released hs hs') :
      InPlace (fun h h' => Released h h' ∨ h' = h) hs hs' :=
    h.imp fun _ _ place => ⟨place.1, .inl place.2⟩
  cases result with
  | ok _ => exact released h.1
  | error f =>
    obtain ⟨before, before', name, h, _, after, _, _, rfl, rfl, front, -⟩ := h
    have back : InPlace (fun h h' => Released h h' ∨ h' = h) ((name, h) :: after)
        ((name, h) :: after) := InPlace.refl (fun _ => .inr rfl) _
    exact List.rel_append (released front) back

/-! ## Disconnecting again -/

/-- No handle holds a client, so that disconnecting all of them changes nothing and closes
nothing, whatever closing a client would do. -/
def Idle (r : Registry σ κ) : Prop :=
  (∀ p ∈ r.handles, p.2.status ≠ .connected) ∧
    ∀ {ω : Type} (b : Backend ω σ κ) (w : ω), r.disconnectAll b w = (.ok (), r, w)

theorem visit_idle (b : Backend ω σ κ) {hs : List (String × Handle σ κ)}
    (none_held : ∀ p ∈ hs, p.2.client = none) (w : ω) :
    visit (disconnectStep b) hs w = (.ok (), hs, w) := by
  induction hs with
  | nil => rfl
  | cons p hs ih =>
    obtain ⟨name, h⟩ := p
    simp only [visit, disconnectStep_idle b (none_held _ List.mem_cons_self),
      ih fun p hp => none_held p (List.mem_cons_of_mem _ hp)]

theorem idle_of_released {hs : List (String × Handle σ κ)} {r : Registry σ κ}
    (released : InPlace Released hs r.handles) : Idle r := by
  have let_go : ∀ p ∈ r.handles, ∃ h, Released h p.2 := by
    intro p hp
    obtain ⟨h, -, hr⟩ := released.mem_right hp
    exact ⟨h, hr⟩
  refine ⟨fun p hp => ?_, fun b w => ?_⟩
  · obtain ⟨h, hr⟩ := let_go p hp
    exact hr.status
  · have none_held : ∀ p ∈ r.handles, p.2.client = none := by
      intro p hp
      obtain ⟨h, hr⟩ := let_go p hp
      rw [hr]
    simp only [disconnectAll, visit_idle b none_held w]

theorem released_twice {hs hs' hs'' : List (String × Handle σ κ)}
    (first : InPlace (fun h h' => Released h h' ∨ h' = h) hs hs') (second : InPlace Released hs' hs'') :
    InPlace Released hs hs'' := by
  induction first generalizing hs'' with
  | nil => exact second
  | cons place _ ih =>
    cases second with
    | cons place' later =>
      exact .cons ⟨place'.1.trans place.1, Released.trans place.2 place'.2⟩ (ih later)

/-- **A bulk disconnect goes on where it stopped.** Whatever happened to a registry, disconnecting
all its handles closes their clients in the order of their names. Up to the first client that does
not close the handles are let go; its handle and those after it stay as they were. Once the clients
that are left do close, disconnecting again lets go of all handles; after that it does nothing. -/
theorem bulk_disconnect_goes_on (s : Service ω σ κ ο) (c : Configuration) (own : String) (w : ω)
    (past : List (Act ω ο)) :
    let now := run s ⟨Registry.empty c own, w⟩ past
    let first := act s now .disconnectAll
    let r := first.2.registry
    (now.registry.names.Pairwise fun a b => Utf8.ofString a < Utf8.ofString b) ∧
      (∀ p ∈ now.registry.handles, p.2.name = p.1) ∧
      r.names = now.registry.names ∧ r = { now.registry with handles := r.handles } ∧
      DisconnectsUpTo s.backend now.registry.handles r.handles now.world first.2.world first.1 ∧
      (first.1 = .ok () → Idle r) ∧
      ∀ later : ω, (closeAll s.backend (clients r.handles) later).1 = .ok () →
        let again := act s ⟨r, later⟩ .disconnectAll
        again.1 = .ok () ∧
          again.2.world = (closeAll s.backend (clients r.handles) later).2 ∧
          InPlace Released now.registry.handles again.2.registry.handles ∧
          again.2.registry = { now.registry with handles := again.2.registry.handles } ∧
          Idle again.2.registry := by
  intro now
  have sound : Sound c now.registry := run_sound past (.empty c own)
  have sound' : Sound c (act s now .disconnectAll).2.registry := act_sound sound .disconnectAll
  rcases he : now.registry.disconnectAll s.backend now.world with ⟨result, r, w'⟩
  obtain ⟨upTo, names, same⟩ := disconnectAll_upTo sound.wellKept he
  simp only [act, bulk, he] at sound' ⊢
  refine ⟨sound.names_ascend, sound.wellNamed.named, names, same, upTo, ?_, ?_⟩
  · intro ok
    rw [ok] at upTo
    exact idle_of_released upTo.1
  · intro later closes
    rcases he' : r.disconnectAll s.backend later with ⟨again, r', w''⟩
    obtain ⟨upTo', -, same'⟩ := disconnectAll_upTo sound'.wellKept he'
    obtain ⟨closed, ok_iff⟩ := upTo'.closeAll_eq
    have ok := ok_iff.1 closes
    rw [ok] at upTo'
    have released := released_twice upTo.inPlace upTo'.1
    exact ⟨ok, closed.symm, released, by rw [same', same], idle_of_released released⟩

/-- Three stores. -/
def threeStores : Configuration :=
  ⟨[("redis", .object [
    ("a", .object [("address", .string "h")]),
    ("b", .object [("address", .string "h")]),
    ("c", .object [("address", .string "h")])])]⟩

def memoryService : Service KeyValue.Server KeyValue.Settings KeyValue.Client KeyValue.Operation :=
  KeyValue.service KeyValue.Memory.driver

/-- The last two of them are connected, and the server does not let their clients go. -/
def lastTwoHeld : Stores KeyValue.Server KeyValue.Settings KeyValue.Client :=
  run memoryService ⟨Registry.empty threeStores "redis", KeyValue.Server.fresh⟩
    [.load "redis", .request "b" .connect, .request "c" .connect,
      .elsewhere (KeyValue.Server.fresh.refuse "close" (some "busy"))]

theorem let_go_at_second_try :
    let first := act memoryService lastTwoHeld .disconnectAll
    let again := act memoryService ⟨first.2.registry, KeyValue.Server.fresh⟩ .disconnectAll
    first.1 = .error (.operation "b" "" "CLOSE: fake redis: busy") ∧
      (closeAll memoryService.backend (clients first.2.registry.handles)
        KeyValue.Server.fresh).1 = .ok () ∧
      again.1 = .ok () ∧ InPlace Released lastTwoHeld.registry.handles again.2.registry.handles ∧
      Idle again.2.registry := by
  have closes : (closeAll memoryService.backend
      (clients (act memoryService lastTwoHeld .disconnectAll).2.registry.handles)
      KeyValue.Server.fresh).1 = .ok () := by decide +kernel
  obtain ⟨-, -, -, -, -, -, retry⟩ := bulk_disconnect_goes_on memoryService threeStores "redis"
    KeyValue.Server.fresh _
  obtain ⟨ok, -, released, -, idle⟩ := retry KeyValue.Server.fresh closes
  exact ⟨by decide +kernel, closes, ok, released, idle⟩

end NamedStores.Registry
