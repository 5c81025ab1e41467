/-
Bulk steps on a registry: visiting the handles in the order of their names up to the first that
fails. `visit_cases` splits the handles into those before, the one that failed, and those after
it, which stay as they are.
-/
import NamedStores.Proofs.Handle.Steps
import NamedStores.Proofs.Registry.Load

namespace NamedStores.Registry

variable {ω σ κ τ : Type}

/-- All handles were visited, in order, and every step succeeded. -/
inductive Visits (step : Handle σ κ → ω → Except τ Unit × Handle σ κ × ω) :
    List (String × Handle σ κ) → ω → List (String × Handle σ κ) → ω → Prop
  | nil (w : ω) : Visits step [] w [] w
  | cons {name : String} {h h' : Handle σ κ} {hs hs' : List (String × Handle σ κ)} {w w₁ w' : ω} :
      step h w = (.ok (), h', w₁) → Visits step hs w₁ hs' w' →
      Visits step ((name, h) :: hs) w ((name, h') :: hs') w'

theorem visit_cases {step : Handle σ κ → ω → Except τ Unit × Handle σ κ × ω}
    {hs hs' : List (String × Handle σ κ)} {w w' : ω} {result : Except τ Unit}
    (he : visit step hs w = (result, hs', w')) :
    (result = .ok () ∧ Visits step hs w hs' w') ∨
      ∃ t before before' name h h' after w₁, result = .error t ∧
        hs = before ++ (name, h) :: after ∧ hs' = before' ++ (name, h') :: after ∧
        Visits step before w before' w₁ ∧ step h w₁ = (.error t, h', w') := by
  induction hs generalizing w hs' with
  | nil =>
    cases he
    exact .inl ⟨rfl, .nil _⟩
  | cons p hs ih =>
    obtain ⟨name, h⟩ := p
    rw [visit] at he
    split at he
    · next t h' w₁ hstep =>
      cases he
      exact .inr ⟨t, [], [], name, h, h', hs, w, rfl, rfl, rfl, .nil _, hstep⟩
    · next h' w₁ hstep =>
      rcases hv : visit step hs w₁ with ⟨result', hs₁, w₂⟩
      simp only [hv] at he
      cases he
      rcases ih hv with ⟨rfl, hall⟩ |
        ⟨t, before, before', name', h₁, h₁', after, w₃, rfl, rfl, rfl, hb, hfail⟩
      · exact .inl ⟨rfl, .cons hstep hall⟩
      · exact .inr ⟨t, (name, h) :: before, (name, h') :: before', name', h₁, h₁', after, w₃, rfl,
          rfl, rfl, .cons hstep hb, hfail⟩

/-- Each visited handle stands in its place after the step that was made with it. -/
theorem Visits.mem {step : Handle σ κ → ω → Except τ Unit × Handle σ κ × ω}
    {hs hs' : List (String × Handle σ κ)} {w w' : ω} (hv : Visits step hs w hs' w')
    {name : String} {h : Handle σ κ} (hm : (name, h) ∈ hs) :
    ∃ h' w₁ w₂, (name, h') ∈ hs' ∧ step h w₁ = (.ok (), h', w₂) := by
  induction hv with
  | nil => cases hm
  | @cons name' h₀ h' hs hs' w w₁ w' hstep _ ih =>
    rcases List.mem_cons.1 hm with he | hm
    · cases he
      exact ⟨h', w, w₁, List.mem_cons_self, hstep⟩
    · obtain ⟨h'', w₂, w₃, hm', hs⟩ := ih hm
      exact ⟨h'', w₂, w₃, List.mem_cons_of_mem _ hm', hs⟩

theorem Visits.keys {step : Handle σ κ → ω → Except τ Unit × Handle σ κ × ω}
    {hs hs' : List (String × Handle σ κ)} {w w' : ω} (hv : Visits step hs w hs' w') :
    hs'.map (·.1) = hs.map (·.1) := by
  induction hv with
  | nil => rfl
  | cons _ _ ih => simp [ih]

/-- A bulk step changes no name in the list. -/
theorem visit_keys {step : Handle σ κ → ω → Except τ Unit × Handle σ κ × ω}
    {hs hs' : List (String × Handle σ κ)} {w w' : ω} {result : Except τ Unit}
    (he : visit step hs w = (result, hs', w')) : hs'.map (·.1) = hs.map (·.1) := by
  rcases visit_cases he with
    ⟨-, hv⟩ | ⟨t, before, before', name, h, h', after, w₁, -, rfl, rfl, hv, -⟩
  · exact hv.keys
  · simp [hv.keys]

/-! ## Connecting -/

/-- The handles that a bulk connect selects: all, or those that connect at start. -/
def selects (all : Bool) (h : Handle σ κ) : Bool := all || h.policy.atStart

/-- Both bulk connects differ in what they select alone. -/
theorem connect_eq (b : Backend ω σ κ) (part : String) (all : Bool) (r : Registry σ κ) (w : ω) :
    (if all = true then r.connectAll b part w else r.connectAllAtStart b part w) =
      connectSelected b part (selects all) r w := by
  cases all <;> rfl

/-- Connecting a handle with settings: it is connected already, or its client is opened, or the
store refuses and the handle stays as it is. -/
theorem connectStep_of_settings {b : Backend ω σ κ} {c : Configuration} {part : String}
    {all : Bool} {h h' : Handle σ κ} {w w' : ω} {result : Except Stop Unit} {s : σ}
    (hs : h.settings = some s)
    (he : connectStep b c part (selects all) h w = (result, h', w')) :
    (result = .ok () ∧ h' = h ∧ w' = w ∧ (selects all h = false ∨ h.client.isSome)) ∨
    (selects all h = true ∧ h.client = none ∧ ∃ refusal,
      Handle.openClient b s w = (.error refusal, w') ∧ h' = h ∧
      result = .error (.handle h.name h.policy.must (.refused refusal) false)) ∨
    (selects all h = true ∧ h.client = none ∧ ∃ client,
      Handle.openClient b s w = (.ok client, w') ∧ result = .ok () ∧
      h' = { h with client := some client, connectedAt := some (b.now w') }) := by
  have happly : h.apply b c part = (.ok (), h) := by
    simp [Handle.apply, Handle.configure_of_settings hs]
  simp only [connectStep, happly] at he
  split at he
  · next hsel =>
    rcases hc : h.connect b c w with ⟨r, h₁, w₁⟩
    rcases Handle.connect_cases hc with
      ⟨hk, rfl, rfl, rfl⟩ | ⟨-, e, hce, -⟩ | ⟨hk, t, refusal, hcf, ho, rfl⟩ |
      ⟨hk, t, h₂, client, hcf, ho, rfl, rfl⟩
    · simp only [hc] at he
      cases he
      exact .inl ⟨rfl, rfl, rfl, .inr hk⟩
    · simp [Handle.configure_of_settings hs] at hce
    · simp only [hc] at he
      cases he
      obtain ⟨hst, rfl⟩ := hcf.resolve_right fun hn => by simp [hn.1] at hs
      cases hs.symm.trans hst
      exact .inr (.inl ⟨hsel, hk, refusal, ho, rfl, rfl⟩)
    · simp only [hc] at he
      cases he
      obtain ⟨hst, rfl⟩ := hcf.resolve_right fun hn => by simp [hn.1] at hs
      cases hs.symm.trans hst
      exact .inr (.inr ⟨hsel, hk, client, ho, rfl, rfl⟩)
  · next hsel =>
    cases he
    exact .inl ⟨rfl, rfl, rfl, .inl (by simpa using hsel)⟩

/-- A handle with settings fails only because its store refuses, and stays as it is. -/
theorem connectStep_error {b : Backend ω σ κ} {c : Configuration} {part : String}
    {all : Bool} {h h' : Handle σ κ} {w w' : ω} {stop : Stop} {s : σ}
    (hs : h.settings = some s)
    (he : connectStep b c part (selects all) h w = (.error stop, h', w')) :
    selects all h = true ∧ h.client = none ∧ h' = h ∧ ∃ refusal,
      Handle.openClient b s w = (.error refusal, w') ∧
      stop = .handle h.name h.policy.must (.refused refusal) false := by
  rcases connectStep_of_settings hs he with
    ⟨hok, -⟩ | ⟨hsel, hk, refusal, ho, rfl, hstop⟩ | ⟨-, -, client, -, hok, -⟩
  · cases hok
  · cases hstop
    exact ⟨hsel, hk, rfl, refusal, ho, rfl⟩
  · cases hok

/-- All that connecting a handle can come to: it cannot be configured, or with its settings it
goes on as `connectStep_of_settings` says. -/
theorem connectStep_cases {b : Backend ω σ κ} {c : Configuration} {part : String} {all : Bool}
    {h h' : Handle σ κ} {w w' : ω} {result : Except Stop Unit}
    (he : connectStep b c part (selects all) h w = (result, h', w')) :
    (∃ e, h.configure b c part = .error e ∧ h' = h ∧ w' = w ∧
      result = .error (.handle h.name h.policy.must (.setback e) true)) ∨
    ∃ s h₁, Handle.Configures b c part h s h₁ ∧
      connectStep b c part (selects all) h₁ w = (result, h', w') := by
  rcases ha : h.apply b c part with ⟨r, h₁⟩
  rcases Handle.apply_cases ha with ⟨e, hce, rfl, rfl⟩ | ⟨s, hc, rfl⟩
  · simp only [connectStep, ha] at he
    cases he
    exact .inl ⟨e, hce, rfl, rfl, rfl⟩
  · refine .inr ⟨s, h₁, hc, ?_⟩
    have settled : h₁.settings = some s := by
      rcases hc with ⟨hs, rfl⟩ | ⟨-, -, rfl⟩
      · exact hs
      · rfl
    have again : h₁.apply b c part = (.ok (), h₁) := by
      simp [Handle.apply, Handle.configure_of_settings settled]
    simp only [connectStep, ha] at he
    simp only [connectStep, again]
    exact he

/-! ## Disconnecting -/

theorem disconnectStep_cases {b : Backend ω σ κ} {h h' : Handle σ κ} {w w' : ω}
    {result : Except Stop Unit} (he : disconnectStep b h w = (result, h', w')) :
    (h.client = none ∧ result = .ok () ∧ h' = h ∧ w' = w) ∨
    ∃ client, h.client = some client ∧
      ((∃ message, b.close client w = (.error message, w') ∧ h' = h ∧
          result = .error (.handle h.name h.policy.must (.unclosed message) false)) ∨
        (b.close client w = (.ok (), w') ∧ result = .ok () ∧
          h' = { h with client := none, connectedAt := none })) := by
  rcases hd : h.disconnect b w with ⟨r, h₁, w₁⟩
  rcases Handle.disconnect_cases hd with
    ⟨hk, rfl, rfl, rfl⟩ | ⟨client, hk, ⟨message, hc, rfl, rfl⟩ | ⟨hc, rfl, rfl⟩⟩
  · simp only [disconnectStep, hd] at he
    cases he
    exact .inl ⟨hk, rfl, rfl, rfl⟩
  · simp only [disconnectStep, hd] at he
    cases he
    exact .inr ⟨client, hk, .inl ⟨message, hc, rfl, rfl⟩⟩
  · simp only [disconnectStep, hd] at he
    cases he
    exact .inr ⟨client, hk, .inr ⟨hc, rfl, rfl⟩⟩

end NamedStores.Registry
