/-
Reading JSON text whose shape is known. A shape says what is wanted at a place; text of
another shape is a fault that names what was found. A structure reads from an object, which
may hold other fields, or from a list with one item per field.

Where a fault belongs to a whole container, its place is found after trying to close the
container: a closing bracket is consumed, and in a list also a comma.
-/
import NamedStores.Json.Reader

namespace NamedStores.Json

inductive Shape where
  | any
  | string
  | bool
  | unsigned (bits : Nat)
  | signed (bits : Nat)
  | optional (shape : Shape)
  | sequence (item : Shape)
  | structure (name : String) (fields : List (String × Shape))
  | choice (names : List String)
  | oneOf (name : String) (accepts : Json → Bool)

namespace Shape

/-- How a fault calls what is wanted. -/
def wanted : Shape → String
  | .any => "any value"
  | .string => "a string"
  | .bool => "a boolean"
  | .unsigned bits => s!"u{bits}"
  | .signed bits => s!"i{bits}"
  | .optional shape => shape.wanted
  | .sequence _ => "a sequence"
  | .structure name _ => s!"struct {name}"
  | .choice _ => "variant identifier"
  | .oneOf name _ => name

def isOptional : Shape → Bool
  | .optional _ => true
  | _ => false

end Shape

/-! ## Closing a container after a fault -/

def closeList (bs : Bytes) : Bytes :=
  match skipBlanks bs with
  | b :: rest =>
    if asChar b = ']' then rest else if asChar b = ',' then skipBlanks rest else b :: rest
  | [] => []

def closeObject (bs : Bytes) : Bytes :=
  match skipBlanks bs with
  | b :: rest => if asChar b = '\x7d' then rest else b :: rest
  | [] => []

/-- Ends a list that has all its items. -/
def endList (bs : Bytes) : Except Fault Bytes :=
  match skipBlanks bs with
  | [] => lookFault .endOfList []
  | b :: rest =>
    if asChar b = ']' then .ok rest
    else if asChar b = ',' then
      match skipBlanks rest with
      | c :: more =>
        lookFault (if asChar c = ']' then .trailingComma else .trailingCharacters) (c :: more)
      | [] => lookFault .trailingCharacters []
    else lookFault .trailingCharacters (b :: rest)

/-! ## Passing over a value -/

/-- What may stand next while values are passed over. -/
inductive Passing where
  | value
  | afterValue
  | afterOpening

/-- Passes over a value and the containers it stands in. True marks a list, false an object. -/
def passValues : Nat → Passing → List Bool → Bytes → Except Fault Bytes
  | 0, _, _, bs => lookFault .endOfValue bs
  | fuel + 1, .value, opened, bs =>
    match skipBlanks bs with
    | [] => lookFault .endOfValue []
    | b :: rest =>
      let passed (e : Except Fault Bytes) : Except Fault Bytes :=
        match e with
        | .error f => .error f
        | .ok rest => passValues fuel .afterValue opened rest
      match asChar b with
      | 'n' => passed (word ['u', 'l', 'l'] rest)
      | 't' => passed (word ['r', 'u', 'e'] rest)
      | 'f' => passed (word ['a', 'l', 's', 'e'] rest)
      | '-' => passed (Number.pass rest)
      | '"' => passed (passString rest)
      | '[' => passValues fuel .afterOpening (true :: opened) rest
      | '\x7b' => passValues fuel .afterOpening (false :: opened) rest
      | _ =>
        if isDigit b then passed (Number.pass (b :: rest)) else lookFault .expectedValue (b :: rest)
  | _ + 1, .afterValue, [], bs => .ok bs
  | _ + 1, .afterOpening, [], bs => .ok bs
  | fuel + 1, place, isList :: opened, bs =>
    let comma : Bool := match place with
      | .afterValue => true
      | _ => false
    let goOn (bs : Bytes) : Except Fault Bytes :=
      if isList then passValues fuel .value (isList :: opened) bs
      else
        match skipBlanks bs with
        | [] => lookFault .endOfObject []
        | b :: rest =>
          if asChar b ≠ '"' then lookFault .keyNotString (b :: rest)
          else
            match passString rest with
            | .error f => .error f
            | .ok rest =>
              match colon rest with
              | .error f => .error f
              | .ok rest => passValues fuel .value (isList :: opened) rest
    match skipBlanks bs with
    | [] => lookFault (if isList then .endOfList else .endOfObject) []
    | b :: rest =>
      if comma ∧ asChar b = ',' then goOn rest
      else if asChar b = (if isList then ']' else '\x7d') then
        passValues fuel .afterValue opened rest
      else if comma then
        lookFault (if isList then .expectedListEnd else .expectedObjectEnd) (b :: rest)
      else goOn (b :: rest)

/-- Behind the outermost value nothing is left to pass over. -/
theorem passValues_done (fuel : Nat) (bs : Bytes) :
    passValues (fuel + 1) .afterValue [] bs = .ok bs := by
  rw [passValues]

def passValue (bs : Bytes) : Except Fault Bytes :=
  passValues (fuelFor bs) .value [] bs

/-! ## Reading a shape -/

/-- The fault of a value that is not what is wanted. A container is not read. -/
def mismatch {α : Type} (wanted : String) (b : UInt8) (rest : Bytes) : Except Fault α :=
  if asChar b = '[' then hereFault (.wrongType .sequence wanted) (b :: rest)
  else if asChar b = '\x7b' then hereFault (.wrongType .map wanted) (b :: rest)
  else
    match scalar b rest with
    | .error f => .error f
    | .ok (v, rest) =>
      let found : Found :=
        match v with
        | .bool b => .bool b
        | .integer n => .integer n
        | .float x => .float x
        | .string s => .string s
        | _ => .null
      hereFault (.wrongType found wanted) rest

/-- An integer between two bounds, the upper one left out. -/
def readInteger (wanted : String) (low high : Int) (b : UInt8) (rest : Bytes) : Step Json :=
  if asChar b = '-' || isDigit b then
    match scalar b rest with
    | .error f => .error f
    | .ok (.integer n, rest) =>
      if low ≤ n ∧ n < high then .ok (.integer n, rest)
      else hereFault (.wrongValue n wanted) rest
    | .ok _ => mismatch wanted b rest
  else mismatch wanted b rest

/-- A name in quotes that is one of those known. -/
def readName (names : List String) (bs : Bytes) : Step Json :=
  match skipBlanks bs with
  | [] => lookFault .endOfValue []
  | b :: rest =>
    if asChar b = '"' then
      match readString rest with
      | .error f => .error f
      | .ok (s, rest) =>
        if s ∈ names then .ok (.string s, rest)
        else hereFault (.unknownVariant s names) rest
    else mismatch "variant identifier" b rest

/-- A choice by its name alone, or as an object that gives null to it. -/
def readChoice (names : List String) (depth : Nat) (b : UInt8) (rest : Bytes) :
    Except Fault (Json × Bytes) :=
  if asChar b = '"' then readName names (b :: rest)
  else if asChar b = '\x7b' then
    if depth ≤ 1 then lookFault .nesting (b :: rest)
    else do
      let (v, rest) ← readName names rest
      let rest ← colon rest
      match skipBlanks rest with
      | [] => lookFault .endOfValue []
      | c :: rest =>
        if asChar c = 'n' then
          let rest ← word ['u', 'l', 'l'] rest
          match skipBlanks rest with
          | [] => hereFault .endOfObject []
          | d :: rest =>
            if asChar d = '\x7d' then return (v, rest) else hereFault .expectedValue (d :: rest)
        else mismatch "unit" c rest
  else lookFault .expectedValue (b :: rest)

/-- What is said of a structure that lacks items. -/
def itemsWanted (name : String) (count : Nat) : String :=
  if count = 1 then s!"struct {name} with 1 element" else s!"struct {name} with {count} elements"

/-- The fields that an object gave, or null for those it may leave out. -/
def completeFields (given : List (String × Json)) (rest : Bytes) :
    List (String × Shape) → Except Fault (List (String × Json))
  | [] => .ok []
  | (name, shape) :: fields =>
    match (given.find? (·.1 = name)).map (·.2) with
    | some v => (completeFields given rest fields).map ((name, v) :: ·)
    | none =>
      if shape.isOptional then (completeFields given rest fields).map ((name, .null) :: ·)
      else hereFault (.missingField name) rest

mutual

def readAs : Nat → Nat → Shape → Bytes → Step Json
  | 0, _, _, bs => lookFault .endOfValue bs
  | fuel + 1, depth, shape, bs =>
    match skipBlanks bs with
    | [] => lookFault .endOfValue []
    | b :: rest =>
      match shape with
      | .any => value fuel depth (b :: rest)
      | .string =>
        if asChar b = '"' then (readString rest).map fun (s, rest) => (.string s, rest)
        else mismatch shape.wanted b rest
      | .bool => if asChar b = 't' || asChar b = 'f' then scalar b rest else mismatch shape.wanted b rest
      | .unsigned bits => readInteger shape.wanted 0 (Int.ofNat (Nat.pow 2 bits)) b rest
      | .signed bits =>
        let half := Int.ofNat (Nat.pow 2 (bits - 1))
        readInteger shape.wanted (-half) half b rest
      | .optional inner =>
        if asChar b = 'n' then scalar b rest else readAs fuel depth inner (b :: rest)
      | .sequence item =>
        if asChar b ≠ '[' then mismatch shape.wanted b rest
        else if depth ≤ 1 then lookFault .nesting (b :: rest)
        else (readItems fuel (depth - 1) item true rest).map fun (vs, rest) => (.array vs, rest)
      | .structure name fields =>
        if asChar b = '[' then
          if depth ≤ 1 then lookFault .nesting (b :: rest)
          else
            match readTuple fuel (depth - 1) name fields.length 0 fields rest with
            | .error f => .error f
            | .ok (vs, rest) => (endList rest).map (.object vs, ·)
        else if asChar b = '\x7b' then
          if depth ≤ 1 then lookFault .nesting (b :: rest)
          else
            match readFields fuel (depth - 1) fields true [] rest with
            | .error f => .error f
            | .ok (given, rest) => (completeFields given rest fields).map (.object ·, rest)
        else mismatch shape.wanted b rest
      | .choice names => readChoice names depth b rest
      | .oneOf name accepts =>
        match value fuel depth (b :: rest) with
        | .error f => .error f
        | .ok (v, rest) =>
          if accepts v then .ok (v, rest) else hereFault (.noAlternative name) rest

/-- The items of a list. A value without an alternative is placed where the list would close. -/
def readItems : Nat → Nat → Shape → Bool → Bytes → Step (List Json)
  | 0, _, _, _, bs => lookFault .endOfList bs
  | fuel + 1, depth, item, first, bs =>
    match nextItem first bs with
    | .error f => .error f
    | .ok (.done rest) => .ok ([], rest)
    | .ok (.more bs) =>
      match readAs fuel depth item bs with
      | .error f =>
        match f.cause with
        | .noAlternative name => hereFault (.noAlternative name) (closeList f.rest)
        | _ => .error f
      | .ok (v, rest) =>
        match readItems fuel depth item false rest with
        | .error f => .error f
        | .ok (vs, rest) => .ok (v :: vs, rest)

/-- One item per field, in the order of the fields. -/
def readTuple : Nat → Nat → String → Nat → Nat → List (String × Shape) → Bytes →
    Step (List (String × Json))
  | 0, _, _, _, _, _, bs => lookFault .endOfList bs
  | _ + 1, _, _, _, _, [], bs => .ok ([], bs)
  | fuel + 1, depth, name, count, index, (field, shape) :: fields, bs =>
    match nextItem (index = 0) bs with
    | .error f => .error f
    | .ok (.done rest) => hereFault (.wrongLength index (itemsWanted name count)) rest
    | .ok (.more bs) =>
      match readAs fuel depth shape bs with
      | .error f => .error f
      | .ok (v, rest) =>
        match readTuple fuel depth name count (index + 1) fields rest with
        | .error f => .error f
        | .ok (vs, rest) => .ok ((field, v) :: vs, rest)

/-- The known fields of an object, as they come; the others are passed over. -/
def readFields : Nat → Nat → List (String × Shape) → Bool → List (String × Json) → Bytes →
    Step (List (String × Json))
  | 0, _, _, _, _, bs => lookFault .endOfObject bs
  | fuel + 1, depth, fields, first, given, bs =>
    match nextKey first bs with
    | .error f => .error f
    | .ok (.done rest) => .ok (given, rest)
    | .ok (.more bs) =>
      match readString bs with
      | .error f => .error f
      | .ok (name, rest) =>
        match (fields.find? (·.1 = name)).map (·.2) with
        | none =>
          match colon rest with
          | .error f => .error f
          | .ok rest =>
            match passValue rest with
            | .error f => .error f
            | .ok rest => readFields fuel depth fields false given rest
        | some shape =>
          if given.any (·.1 = name) then hereFault (.duplicateField name) (closeObject rest)
          else
            match colon rest with
            | .error f => .error f
            | .ok rest =>
              match readAs fuel depth shape rest with
              | .error f => .error f
              | .ok (v, rest) => readFields fuel depth fields false ((name, v) :: given) rest

end

/-- The value of a text that has a shape: a structure's fields come in the shape's order. -/
def ofOctetsAs (shape : Shape) (bs : Bytes) : Except String Json :=
  let whole : Except Fault Json := do
    let (v, rest) ← readAs (fuelFor bs) nestingLimit shape bs
    finish rest
    return v
  whole.mapError (·.message bs)

end NamedStores.Json
