/-
Checks made one after the other. A reader that puts a record to checks in an order gives what it
reads when all of them hold, and else reports the first that fails. Which checks there are, what
they ask and what is reported of them is up to the reader; that the first one counts is said here.
-/
import NamedStores.Record

namespace NamedStores

/-- Checks in the order in which they are made, with what each of them asks, and what may be
reported of one that fails. -/
structure Checks (χ : Type) where
  order : List χ
  Holds : χ → Prop
  Reported : χ → Defect → Prop

namespace Checks

variable {χ α β : Type}

/-- A check that fails, with none that fails before it. -/
def FirstFails (c : Checks χ) (check : χ) : Prop :=
  ∃ before after, c.order = before ++ check :: after ∧ (∀ earlier ∈ before, c.Holds earlier) ∧
    ¬ c.Holds check

/-- A step that makes a check: it gives what is good when the check holds, and else reports it. -/
def Checked (c : Checks χ) (check : χ) (good : α → Prop) (x : Except Defect α) : Prop :=
  (∃ a, x = .ok a ∧ good a ∧ c.Holds check) ∨
    ∃ d, x = .error d ∧ c.Reported check d ∧ ¬ c.Holds check

/-- Steps that give what is good, or report the first check that fails. -/
def Decided (c : Checks χ) (good : α → Prop) (x : Except Defect α) : Prop :=
  (∃ a, x = .ok a ∧ good a) ∨
    ∃ check d, x = .error d ∧ c.FirstFails check ∧ c.Reported check d

variable {c : Checks χ} {good : α → Prop} {better : β → Prop} {x : Except Defect α}

/-- A check is made when those before it have held, and then all of them have. -/
theorem Checked.decided {check : χ} (h : c.Checked check good x) (before : List χ) {after : List χ}
    (order : c.order = before ++ check :: after) (held : ∀ earlier ∈ before, c.Holds earlier) :
    c.Decided (fun a => good a ∧ ∀ earlier ∈ before ++ [check], c.Holds earlier) x := by
  rcases h with ⟨a, found, good_a, holds⟩ | ⟨d, failed, reported, fails⟩
  · refine .inl ⟨a, found, good_a, fun earlier listed => ?_⟩
    rcases List.mem_append.mp listed with behind | last
    · exact held earlier behind
    · exact List.mem_singleton.mp last ▸ holds
  · exact .inr ⟨check, d, failed, ⟨before, after, order, held, fails⟩, reported⟩

theorem Decided.bind {f : α → Except Defect β} (h : c.Decided good x)
    (next : ∀ a, good a → c.Decided better (f a)) : c.Decided better (x.bind f) := by
  rcases h with ⟨a, rfl, found⟩ | ⟨check, d, rfl, first, reported⟩
  · exact next a found
  · exact .inr ⟨check, d, rfl, first, reported⟩

theorem Decided.map {f : α → β} (h : c.Decided good x) (next : ∀ a, good a → better (f a)) :
    c.Decided better (x.map f) := by
  rcases h with ⟨a, rfl, found⟩ | ⟨check, d, rfl, first, reported⟩
  · exact .inl ⟨f a, rfl, next a found⟩
  · exact .inr ⟨check, d, rfl, first, reported⟩

/-- One check made in its turn, and whatever comes behind it. -/
theorem Checked.bind {check : χ} {f : α → Except Defect β} (h : c.Checked check good x)
    (before : List χ) {after : List χ} (order : c.order = before ++ check :: after)
    (held : ∀ earlier ∈ before, c.Holds earlier)
    (next : ∀ a, good a → (∀ earlier ∈ before ++ [check], c.Holds earlier) →
      c.Decided better (f a)) : c.Decided better (x.bind f) :=
  (h.decided before order held).bind fun a found => next a found.1 found.2

/-- A reader that is decided accepts when all checks hold, and refuses for the first that fails. -/
theorem Decided.verdict (h : c.Decided (fun _ => ∀ check, c.Holds check) x) :
    ((∃ a, x = .ok a) ↔ ∀ check, c.Holds check) ∧
      ((¬ ∀ check, c.Holds check) →
        ∃ check d, c.FirstFails check ∧ c.Reported check d ∧ x = .error d) := by
  rcases h with ⟨a, rfl, holds⟩ | ⟨check, d, rfl, first, reported⟩
  · exact ⟨⟨fun _ => holds, fun _ => ⟨a, rfl⟩⟩, fun fails => absurd holds fails⟩
  · refine ⟨⟨fun accepted => ?_, fun holds => ?_⟩, fun _ => ⟨check, d, first, reported, rfl⟩⟩
    · obtain ⟨a, other⟩ := accepted
      cases other
    · obtain ⟨_, _, -, -, fails⟩ := first
      exact absurd (holds check) fails

end Checks

end NamedStores
