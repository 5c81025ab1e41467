/-
Reading the fields of a handle's record. A field that is missing or unusable is a defect: the
field to name when the handle must connect, and the reason to give otherwise. Which of the two
is reported depends on the handle's policy alone.
-/
import NamedStores.Configuration
import NamedStores.Json.Writer

namespace NamedStores

/-- The field that is to blame, and the reason. -/
structure Defect where
  field : String
  reason : String
  deriving DecidableEq

/-- Why a handle cannot be configured. A section that is present is none if it is no object. -/
inductive Setback where
  | sectionNotFound (name : String) (isPresent : Bool)
  | defect (d : Defect)
  deriving DecidableEq

namespace Defect

/-- A handle that must connect reports the field, any other the reason. -/
def failure (d : Defect) (handle : String) (must : Bool) : Failure :=
  if must then .mandatoryFieldMissing handle d.field else .configurationUnusable handle d.reason

end Defect

def Setback.failure (s : Setback) (handle : String) (must : Bool) : Failure :=
  match s with
  | .sectionNotFound name _ => .configurationNotFound name
  | .defect d => d.failure handle must

namespace Record

def requiredText (record : Record) (field : String) : Except Defect String :=
  match (record.get? field).bind Json.string? with
  | some s => .ok s
  | none => .error ⟨s!"{field} field", s!"mandatory {field} field not exist"⟩

/-- A text; anything else counts as absent. -/
def optionalText (record : Record) (field : String) : Option String :=
  (record.get? field).bind Json.string?

/-- An integer of 64 bits; null counts as absent, anything else is a defect. -/
def optionalInteger (record : Record) (field : String) : Except Defect (Option Int) :=
  match record.get? field with
  | none => .ok none
  | some .null => .ok none
  | some v =>
    match v.signed? with
    | some n => .ok (some n)
    | none =>
      let found := v.text
      .error ⟨s!"{field} field", s!"{field} field must be an integer, not {found}"⟩

end Record

namespace Configuration

/-- The record of a handle in a section. -/
def record (c : Configuration) (part handle : String) : Except Setback Record :=
  match c.section? part with
  | none => .error (.sectionNotFound part (c.contains part))
  | some records =>
    match (records.get? handle).bind Json.record? with
    | some r => .ok r
    | none =>
      .error (.defect ⟨"configuration record",
        s!"configuration record not found in section '{part}'"⟩)

end Configuration

end NamedStores
