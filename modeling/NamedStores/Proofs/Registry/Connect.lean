/-
Connecting all handles of a registry, or those that connect at start. The handles are visited
in the order of their names. Each that is passed has settings, and a client if it was selected;
the first that fails is left unchanged or without a client, and those after it as they were.
-/
import NamedStores.Proofs.Registry.Life

namespace NamedStores.Registry

variable {ω σ κ ο : Type}

/-! ## One handle -/

/-- Settings stay where there are some, and else they are those of the record in a section. -/
def Takes (b : Backend ω σ κ) (c : Configuration) (part : String) (h h' : Handle σ κ) : Prop :=
  (h.settings.isSome = true ∧ h'.settings = h.settings) ∨
    (h.settings = none ∧ ∃ s, Handle.Reads b c part h.name s ∧ h'.settings = some s)

/-- A handle before and after it was passed. -/
structure Passes (b : Backend ω σ κ) (c : Configuration) (part : String) (all : Bool)
    (h h' : Handle σ κ) : Prop where
  evolves : Handle.Evolves h h'
  configured : h'.settings.isSome = true
  takes : Takes b c part h h'
  connected : selects all h = true → h'.status = .connected
  unselected : selects all h = false → h'.client = h.client ∧ h'.connectedAt = h.connectedAt
  held : h.client.isSome = true → h' = h

/-- A handle before and after it failed, and its failure: it has no settings to take and is
unchanged, or it has settings, was selected, and its store refused. -/
inductive Fails (b : Backend ω σ κ) (c : Configuration) (part : String) (all : Bool)
    (h h' : Handle σ κ) : Failure → Prop
  | configuring (e : Setback) : h.settings = none → h.configure b c part = .error e → h' = h →
      Fails b c part all h h' (e.failure h.name h.policy.must)
  | connecting (refusal : Refusal) : selects all h = true → Handle.Evolves h h' →
      Takes b c part h h' → h.client = none → h'.status = .configured →
      Fails b c part all h h'
        (.connection h.name refusal.message refusal.suggestion h.policy.must)

theorem takes_of_configures {b : Backend ω σ κ} {c : Configuration} {part : String}
    {h h' : Handle σ κ} {s : σ} (hc : Handle.Configures b c part h s h') : Takes b c part h h' := by
  rcases hc with ⟨found, rfl⟩ | ⟨missing, reads, rfl⟩
  · exact .inl ⟨by rw [found]; rfl, rfl⟩
  · exact .inr ⟨missing, s, reads, rfl⟩

theorem connectStep_passes {b : Backend ω σ κ} {c : Configuration} {part : String} {all : Bool}
    {h h' : Handle σ κ} {w w' : ω} (hw : Handle.WellKept h)
    (he : connectStep b c part (selects all) h w = (.ok (), h', w')) :
    Passes b c part all h h' := by
  have evolves := connectStep_evolves he
  rcases connectStep_cases he with ⟨e, -, -, -, failed⟩ | ⟨s, h₁, hc, he⟩
  · cases failed
  · have takes := takes_of_configures hc
    have first := hc.evolves
    -- A handle that holds a client has settings, and configuring leaves it as it is.
    have held (hk : h.client.isSome = true) : h₁ = h := by
      rcases hc with ⟨-, same⟩ | ⟨missing, -, -⟩
      · exact same
      · have settings := hw.settings_of_client hk
        rw [missing] at settings
        cases settings
    have client : h₁.client = h.client ∧ h₁.connectedAt = h.connectedAt := by
      rcases hc with ⟨-, rfl⟩ | ⟨-, -, rfl⟩ <;> exact ⟨rfl, rfl⟩
    have selected : selects all h₁ = selects all h := by rw [selects, selects, first.policy]
    have configured : h₁.settings.isSome = true := by rw [hc.settings]; rfl
    rcases connectStep_of_settings hc.settings he with
      ⟨-, rfl, -, reason⟩ | ⟨-, -, refusal, -, -, failed⟩ | ⟨chosen, missing, k, -, -, rfl⟩
    · refine ⟨evolves, configured, takes, fun chosen => ?_, fun _ => client, held⟩
      rcases reason with passed_over | connected
      · rw [selected, chosen] at passed_over
        cases passed_over
      · exact Handle.status_connected.2 connected
    · cases failed
    · refine ⟨evolves, configured, takes, fun _ => Handle.status_connected.2 rfl,
        fun passed_over => ?_, fun hk => ?_⟩
      · rw [← selected, chosen] at passed_over
        cases passed_over
      · rw [← client.1, missing] at hk
        cases hk

theorem connectStep_fails {b : Backend ω σ κ} {c : Configuration} {part : String} {all : Bool}
    {h h' : Handle σ κ} {w w' : ω} {stop : Stop}
    (he : connectStep b c part (selects all) h w = (.error stop, h', w')) :
    Fails b c part all h h' stop.failure := by
  rcases connectStep_cases he with ⟨e, hc, same, -, failed⟩ | ⟨s, h₁, hc, he⟩
  · cases failed
    exact .configuring e (Handle.configure_error hc).1 hc same
  · obtain ⟨chosen, missing, rfl, refusal, -, rfl⟩ := connectStep_error hc.settings he
    have evolves := hc.evolves
    have client : h'.client = h.client := by
      rcases hc with ⟨-, rfl⟩ | ⟨-, -, rfl⟩ <;> rfl
    simp only [Stop.failure, Trouble.failure, evolves.name, evolves.policy]
    refine .connecting refusal ?_ evolves (takes_of_configures hc) (client ▸ missing)
      (Handle.status_configured.2 ⟨by rw [hc.settings]; rfl, missing⟩)
    rw [← chosen, selects, selects, evolves.policy]

/-! ## All handles -/

/-- How far a bulk connect came: past all handles, or to the first that failed. -/
def ConnectsUpTo (b : Backend ω σ κ) (c : Configuration) (part : String) (all : Bool)
    (hs hs' : List (String × Handle σ κ)) : Except Failure Unit → Prop
  | .ok _ => InPlace (Passes b c part all) hs hs'
  | .error f => ∃ before before' name h h' after, hs = before ++ (name, h) :: after ∧
      hs' = before' ++ (name, h') :: after ∧ InPlace (Passes b c part all) before before' ∧
      Fails b c part all h h' f

theorem connectSelected_upTo {b : Backend ω σ κ} {c : Configuration} {part : String} {all : Bool}
    {r r' : Registry σ κ} (hr : Sound c r) {w w' : ω} {result : Except Stop Unit}
    (he : connectSelected b part (selects all) r w = (result, r', w')) :
    ConnectsUpTo b c part all r.handles r'.handles (result.mapError Stop.failure) ∧
      r'.names = r.names ∧ r' = { r with handles := r'.handles } := by
  rcases hv : visit (connectStep b r.configuration part (selects all)) r.handles w with
    ⟨result', hs, w₁⟩
  simp only [connectSelected, hv] at he
  cases he
  rw [hr.configuration] at hv
  refine ⟨?_, visit_keys hv, rfl⟩
  have passed {hs hs' : List (String × Handle σ κ)} {w w' : ω} (part_of : ∀ p ∈ hs, p ∈ r.handles)
      (visited : Visits (connectStep b c part (selects all)) hs w hs' w') :
      InPlace (Passes b c part all) hs hs' :=
    visited.inPlace (fun _ _ _ _ => connectStep_passes) fun p hp => hr.wellKept p (part_of p hp)
  rcases visit_cases hv with ⟨rfl, visited⟩ |
    ⟨stop, before, before', name, h, h', after, w₂, rfl, parts, rfl, visited, failed⟩
  · exact passed (fun _ hp => hp) visited
  · refine ⟨before, before', name, h, h', after, parts, rfl, passed (fun p hp => ?_) visited,
      connectStep_fails failed⟩
    rw [parts]
    exact List.mem_append_left _ hp

/-- The act that connects all handles, or those that connect at start. -/
def Act.connectEach (part : String) (all : Bool) : Act ω ο :=
  if all then .connectAll part else .connectAllAtStart part

/-- **A bulk connect stops at the first handle that fails.** Whatever happened to a registry,
connecting all its handles or those that connect at start passes them in the order of their
names up to the first that fails; those after it stay as they were, and so do the names. -/
theorem bulk_connect_stops_at_first (s : Service ω σ κ ο) (c : Configuration) (own : String) (w : ω)
    (past : List (Act ω ο)) (part : String) (all : Bool) :
    let now := run s ⟨Registry.empty c own, w⟩ past
    let (result, after) := act s now (.connectEach part all)
    (now.registry.names.Pairwise fun a b => Utf8.ofString a < Utf8.ofString b) ∧
      (∀ p ∈ now.registry.handles, p.2.name = p.1) ∧
      after.registry.names = now.registry.names ∧
      after.registry = { now.registry with handles := after.registry.handles } ∧
      ConnectsUpTo s.backend c part all now.registry.handles after.registry.handles result := by
  intro now
  have sound : Sound c now.registry := run_sound past (.empty c own)
  have selected : act s now (.connectEach part all) =
      bulk (connectSelected s.backend part (selects all)) now := by
    cases all <;> rfl
  rcases he : connectSelected s.backend part (selects all) now.registry now.world with
    ⟨result, r, w'⟩
  obtain ⟨upTo, names, same⟩ := connectSelected_upTo sound he
  simp only [selected, bulk, he]
  exact ⟨sound.names_ascend, sound.wellNamed.named, names, same, upTo⟩

end NamedStores.Registry
