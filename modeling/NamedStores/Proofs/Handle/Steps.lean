/-
What each step in the life of a handle can do, said once: reading settings, applying them,
connecting and disconnecting. Whatever is proved of handles later goes through these
case lemmas and does not open the steps again.
-/
import NamedStores.Handle

namespace NamedStores.Handle

variable {ω σ κ : Type}

/-- The settings that the record of a handle's name in a section stands for. -/
def Reads (b : Backend ω σ κ) (c : Configuration) (part name : String) (s : σ) : Prop :=
  ∃ record, c.record part name = .ok record ∧ b.readSettings record = .ok s

/-- A handle with its settings: those it had, else those of its record in the section. -/
def Configures (b : Backend ω σ κ) (c : Configuration) (part : String) (h : Handle σ κ)
    (s : σ) (h' : Handle σ κ) : Prop :=
  (h.settings = some s ∧ h' = h) ∨
    (h.settings = none ∧ Reads b c part h.name s ∧ h' = { h with settings := some s })

theorem configure_ok {b : Backend ω σ κ} {c : Configuration} {part : String} {h h' : Handle σ κ}
    {s : σ} (he : h.configure b c part = .ok (s, h')) : Configures b c part h s h' := by
  unfold configure at he
  split at he
  · next s' hs =>
    cases he
    exact .inl ⟨hs, rfl⟩
  · next hs =>
    split at he
    · cases he
    · next record hr =>
      split at he
      · cases he
      · next s' hd =>
        cases he
        exact .inr ⟨hs, ⟨record, hr, hd⟩, rfl⟩

theorem configure_error {b : Backend ω σ κ} {c : Configuration} {part : String} {h : Handle σ κ}
    {e : Setback} (he : h.configure b c part = .error e) :
    h.settings = none ∧ (c.record part h.name = .error e ∨
      ∃ record d, c.record part h.name = .ok record ∧ b.readSettings record = .error d ∧
        e = .defect d) := by
  unfold configure at he
  split at he
  · cases he
  · next hs =>
    refine ⟨hs, ?_⟩
    split at he
    · next e' hr =>
      cases he
      exact .inl hr
    · next record hr =>
      split at he
      · next d hd =>
        cases he
        exact .inr ⟨record, d, hr, hd, rfl⟩
      · cases he

theorem configure_of_settings {b : Backend ω σ κ} {c : Configuration} {part : String}
    {h : Handle σ κ} {s : σ} (hs : h.settings = some s) : h.configure b c part = .ok (s, h) := by
  simp [configure, hs]

theorem apply_cases {b : Backend ω σ κ} {c : Configuration} {part : String} {h h' : Handle σ κ}
    {r : Except Trouble Unit} (he : h.apply b c part = (r, h')) :
    (∃ e, h.configure b c part = .error e ∧ r = .error (.setback e) ∧ h' = h) ∨
      (∃ s, Configures b c part h s h' ∧ r = .ok ()) := by
  unfold apply at he
  split at he
  · next e hc =>
    cases he
    exact .inl ⟨e, hc, rfl, rfl⟩
  · next s h'' hc =>
    cases he
    exact .inr ⟨s, configure_ok hc, rfl⟩

theorem connect_cases {b : Backend ω σ κ} {c : Configuration} {h h' : Handle σ κ} {w w' : ω}
    {r : Except Trouble Unit} (he : h.connect b c w = (r, h', w')) :
    (h.client.isSome ∧ r = .ok () ∧ h' = h ∧ w' = w) ∨
    (h.client = none ∧ ∃ e, h.configure b c h.sectionName = .error e ∧
      r = .error (.setback e) ∧ h' = h ∧ w' = w) ∨
    (h.client = none ∧ ∃ s refusal, Configures b c h.sectionName h s h' ∧
      openClient b s w = (.error refusal, w') ∧ r = .error (.refused refusal)) ∨
    (h.client = none ∧ ∃ s h₁ client, Configures b c h.sectionName h s h₁ ∧
      openClient b s w = (.ok client, w') ∧ r = .ok () ∧
      h' = { h₁ with client := some client, connectedAt := some (b.now w') }) := by
  unfold connect at he
  split at he
  · next client hk =>
    cases he
    exact .inl ⟨by simp [hk], rfl, rfl, rfl⟩
  · next hk =>
    right
    split at he
    · next e hc =>
      cases he
      exact .inl ⟨hk, e, hc, rfl, rfl, rfl⟩
    · next s h₁ hc =>
      right
      split at he
      · next refusal w₁ ho =>
        cases he
        exact .inl ⟨hk, s, refusal, configure_ok hc, ho, rfl⟩
      · next client w₁ ho =>
        cases he
        exact .inr ⟨hk, s, h₁, client, configure_ok hc, ho, rfl, rfl⟩

theorem disconnect_cases {b : Backend ω σ κ} {h h' : Handle σ κ} {w w' : ω}
    {r : Except Trouble Unit} (he : h.disconnect b w = (r, h', w')) :
    (h.client = none ∧ r = .ok () ∧ h' = h ∧ w' = w) ∨
    (∃ client, h.client = some client ∧
      ((∃ message, b.close client w = (.error message, w') ∧ r = .error (.unclosed message) ∧
          h' = h) ∨
        (b.close client w = (.ok (), w') ∧ r = .ok () ∧
          h' = { h with client := none, connectedAt := none }))) := by
  unfold disconnect at he
  split at he
  · next hk =>
    cases he
    exact .inl ⟨hk, rfl, rfl, rfl⟩
  · next client hk =>
    refine .inr ⟨client, hk, ?_⟩
    split at he
    · next message w₁ hc =>
      cases he
      exact .inl ⟨message, hc, rfl, rfl⟩
    · next w₁ hc =>
      cases he
      exact .inr ⟨hc, rfl, rfl⟩

/-! ## Status -/

theorem status_connected {h : Handle σ κ} : h.status = .connected ↔ h.client.isSome := by
  unfold status
  cases h.settings <;> cases h.client <;> simp

theorem status_configured {h : Handle σ κ} :
    h.status = .configured ↔ h.settings.isSome ∧ h.client = none := by
  unfold status
  cases h.settings <;> cases h.client <;> simp

theorem status_unconfigured {h : Handle σ κ} :
    h.status = .unconfigured ↔ h.settings = none ∧ h.client = none := by
  unfold status
  cases h.settings <;> cases h.client <;> simp

end NamedStores.Handle
