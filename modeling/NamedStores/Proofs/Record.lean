/-
The fields of a record, read. What each reader gives is said once by what stands in the field,
so what is proved of records later does not open the readers again.
-/
import NamedStores.ConnectPolicy
import NamedStores.Record

namespace NamedStores

namespace Json

theorem string?_eq_some {v : Json} {text : String} : v.string? = some text ↔ v = .string text := by
  cases v <;> simp [string?]

theorem bool?_eq_some {v : Json} {b : Bool} : v.bool? = some b ↔ v = .bool b := by
  cases v <;> simp [bool?]

theorem signed?_eq_some {v : Json} {n : Int} :
    v.signed? = some n ↔ v = .integer n ∧ Integer.fits64 n = true := by
  cases v with
  | integer m =>
    rw [signed?]
    split
    · rename_i fits
      constructor
      · intro h
        cases h
        exact ⟨rfl, fits⟩
      · rintro ⟨same, -⟩
        cases same
        rfl
    · rename_i large
      refine iff_of_false (fun h => by cases h) fun h => large ?_
      cases h.1
      exact h.2
  | _ => exact iff_of_false (fun h => by cases h) (fun h => by cases h.1)

theorem unsigned?_eq_some {bits n : Nat} {v : Json} :
    v.unsigned? bits = some n ↔ v = .integer n ∧ n < Nat.pow 2 bits := by
  unfold unsigned?
  split
  · rename_i m
    constructor
    · intro h
      split at h
      · cases h
        exact ⟨rfl, ‹_›⟩
      · cases h
    · rintro ⟨same, small⟩
      cases same
      exact if_pos small
  · rename_i other
    refine iff_of_false (fun h => by cases h) fun h => other n h.1

end Json

namespace Record

variable {record : Record} {field : String}

/-! ## Texts -/

theorem optionalText_eq_some {text : String} :
    record.optionalText field = some text ↔ record.get? field = some (.string text) := by
  rw [optionalText, Option.bind_eq_some_iff]
  constructor
  · rintro ⟨v, found, text⟩
    rw [found, Json.string?_eq_some.mp text]
  · intro found
    exact ⟨_, found, rfl⟩

/-- A text that must be there is one that may be there and is. -/
theorem requiredText_eq (record : Record) (field : String) : record.requiredText field =
    (record.optionalText field).elim
      (.error ⟨s!"{field} field", s!"mandatory {field} field not exist"⟩) .ok := by
  rw [requiredText, ← optionalText]
  cases record.optionalText field <;> rfl

theorem requiredText_eq_ok {text : String} :
    record.requiredText field = .ok text ↔ record.get? field = some (.string text) := by
  rw [requiredText_eq, ← optionalText_eq_some]
  cases record.optionalText field <;> simp

/-! ## Integers -/

theorem optionalInteger_ok {v : Json} {n : Int} (found : record.get? field = some v)
    (read : v.signed? = some n) : record.optionalInteger field = .ok (some n) := by
  obtain ⟨rfl, -⟩ := Json.signed?_eq_some.mp read
  rw [optionalInteger, found]
  simp only [read]

theorem optionalInteger_error {v : Json} (found : record.get? field = some v) (other : v ≠ .null)
    (read : v.signed? = none) {text : String} (shown : text = v.text) :
    record.optionalInteger field =
      .error ⟨s!"{field} field", s!"{field} field must be an integer, not {text}"⟩ := by
  rw [optionalInteger, found, shown]
  split
  · rename_i absent
    cases absent
  · rename_i null
    cases null
    exact absurd rfl other
  · rename_i same
    cases same
    simp only [read]

/-- An integer that is read is one of 64 bits. -/
theorem fits64_of_optionalInteger {n : Int} (h : record.optionalInteger field = .ok (some n)) :
    Integer.fits64 n = true := by
  unfold optionalInteger at h
  split at h
  · cases h
  · cases h
  · split at h
    · rename_i read
      cases h
      exact (Json.signed?_eq_some.mp read).2
    · cases h

end Record

/-! ## Flags -/

namespace ConnectPolicy

/-- Each flag is on where the record says so in its field, and off otherwise. -/
structure GivenBy (p : ConnectPolicy) (record : Record) : Prop where
  atStart : p.atStart = true ↔ record.get? "is_connect_at_start" = some (.bool true)
  must : p.must = true ↔ record.get? "must_connected" = some (.bool true)

theorem flag_iff {found : Option Json} :
    (found.bind Json.bool?).getD false = true ↔ found = some (.bool true) := by
  rw [Option.getD_eq_iff, Option.bind_eq_some_iff]
  simp [Json.bool?_eq_some]

theorem ofRecord_givenBy (record : Record) : (ofRecord record).GivenBy record :=
  ⟨flag_iff, flag_iff⟩

/-- A record gives one policy. -/
theorem GivenBy.eq {p q : ConnectPolicy} {record : Record} (given : p.GivenBy record)
    (also : q.GivenBy record) : p = q := by
  obtain ⟨atStart, must⟩ := p
  obtain ⟨atStart', must'⟩ := q
  have first : atStart = atStart' := Bool.eq_iff_iff.mpr (given.atStart.trans also.atStart.symm)
  have second : must = must' := Bool.eq_iff_iff.mpr (given.must.trans also.must.symm)
  rw [first, second]

end ConnectPolicy

end NamedStores
