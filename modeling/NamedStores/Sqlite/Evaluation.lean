/-
What expressions mean at a row. A name is a column of the row's table, or the number of the row
where no column has that name, or a truth value, or else the text it spells in double quotes.
Null stays null in every operation, except that one side may decide `AND` and `OR` alone.
-/
import NamedStores.Sqlite.Problem
import NamedStores.Sqlite.Statement

namespace NamedStores.Sqlite

/-- A column that expressions can name; a computed one has no declared type. -/
structure Field where
  name : String
  affinity : Option Affinity
  declared : Option String

/-- A row of a table, with its number. -/
structure Row where
  number : Int
  values : List Value

/-- What stands around an expression: the columns of the row, whether rows have numbers, the
parameters, and how many rows there are. -/
structure Scope where
  fields : List Field
  isNumbered : Bool
  params : List Value
  count : Nat

namespace Scope

def nothing (params : List Value) : Scope := ⟨[], false, params, 0⟩

/-- What a name refers to. -/
inductive Referent where
  | column (index : Nat) (field : Field)
  | rowNumber
  | constant (v : Value)

def rowNumberNames : List String := ["rowid", "_rowid_", "oid"]

def column? (s : Scope) (name : String) : Option (Nat × Field) :=
  let index := s.fields.findIdx fun f => sameName f.name name
  (s.fields[index]?).map (index, ·)

def referent? (s : Scope) (name : String) (mayBeText : Bool) : Option Referent :=
  match s.column? name with
  | some (index, field) => some (.column index field)
  | none =>
    if s.isNumbered && rowNumberNames.contains (Case.lowerAsciiText name) then some .rowNumber
    else if mayBeText then some (.constant (.text name))
    else if sameName name "true" then some (.constant (.ofBool true))
    else if sameName name "false" then some (.constant (.ofBool false))
    else none

/-- Whether a name is that of a column or of the row's number. -/
def hasTarget (s : Scope) (name : String) : Bool :=
  match s.referent? name false with
  | some (.column _ _) => true
  | some .rowNumber => true
  | _ => false

end Scope

namespace Value

/-- The number that a value counts as: for a text, the one that it begins with, or 0. -/
def asNumber (v : Value) : Value :=
  let start (cs : List Char) : Value :=
    match Number.read cs with
    | some (n, _) => n
    | none => .integer 0
  match v with
  | .text s => start s.toList
  | .blob bs => start (Utf8.decodeLossy bs)
  | v => v

/-- Every number but 0 is true. -/
def truth? (v : Value) : Option Bool :=
  match v.asNumber with
  | .null => none
  | .integer n => some (n ≠ 0)
  | .real x => some !x.isZero
  | _ => some false

def ofTruth (t : Option Bool) : Value :=
  match t with
  | some b => ofBool b
  | none => .null

/-- An integer, or a real where 64 bits do not hold it. -/
def ofWhole (n : Int) : Value := if Integer.fits64 n then .integer n else .real (Double.ofInt n)

/-- Integers stay integers; where one side is a real, the exact result is rounded once. -/
def arithmetic (whole : Int → Int → Int) (exact : Int × Nat → Int × Nat → Int × Nat)
    (v w : Value) : Value :=
  match v.asNumber, w.asNumber with
  | .null, _ => .null
  | _, .null => .null
  | .integer n, .integer m => ofWhole (whole n m)
  | n, m =>
    let (num, den) := exact n.fraction m.fraction
    .real (Double.ofRatio (num < 0) num.natAbs den)

def plus : Value → Value → Value :=
  arithmetic (· + ·) fun (n, d) (m, e) => (n * e + m * d, d * e)

def minus : Value → Value → Value :=
  arithmetic (· - ·) fun (n, d) (m, e) => (n * e - m * d, d * e)

def times : Value → Value → Value :=
  arithmetic (· * ·) fun (n, d) (m, e) => (n * m, d * e)

def negated (v : Value) : Value :=
  match v.asNumber with
  | .integer n => ofWhole (-n)
  | .real x => .real x.negate
  | v => v

def conjunction : Option Bool → Option Bool → Option Bool
  | some false, _ => some false
  | _, some false => some false
  | some true, some true => some true
  | _, _ => none

def disjunction (a b : Option Bool) : Option Bool :=
  (conjunction (a.map not) (b.map not)).map not

end Value

namespace Operator

/-- Whether an order of two values is what a comparison asks for; `none` for other operators. -/
def accepts? : Operator → Option (Ordering → Bool)
  | .equal => some (·.isEq)
  | .unequal => some (·.isNe)
  | .less => some (·.isLT)
  | .lessEqual => some (·.isLE)
  | .greater => some (·.isGT)
  | .greaterEqual => some (·.isGE)
  | _ => none

end Operator

namespace Expr

/-- The first name in an expression that refers to nothing, and counts where none may stand. -/
def check (s : Scope) (mayCount : Bool) : Expr → Except Problem Unit
  | .literal _ => .ok ()
  | .parameter _ => .ok ()
  | .name n mayBeText =>
    match s.referent? n mayBeText with
    | some _ => .ok ()
    | none => .error (.noColumn n)
  | .negate e => check s mayCount e
  | .not e => check s mayCount e
  | .binary _ left right => do
    check s mayCount left
    check s mayCount right
  | .countRows => if mayCount then .ok () else .error .noRowCount

/-- The affinity of a column; other expressions have none. -/
def affinity? (s : Scope) : Expr → Option Affinity
  | .name n mayBeText =>
    match s.referent? n mayBeText with
    | some (.column _ field) => field.affinity
    | some .rowNumber => some .integer
    | _ => none
  | _ => none

/-- Whether the rows are counted in an expression. -/
def counts : Expr → Bool
  | .countRows => true
  | .negate e => counts e
  | .not e => counts e
  | .binary _ left right => counts left || counts right
  | _ => false

/-- Applies an operator to two values, which have the affinities of the columns they are from. -/
def apply (op : Operator) (a b : Option Affinity) (v w : Value) : Value :=
  match op.accepts? with
  | some accepted => .ofTruth ((Affinity.compare (Affinity.common a b) v w).map accepted)
  | none =>
    match op with
    | .plus => v.plus w
    | .minus => v.minus w
    | .times => v.times w
    | .and => .ofTruth (Value.conjunction v.truth? w.truth?)
    | _ => .ofTruth (Value.disjunction v.truth? w.truth?)

def eval (s : Scope) (row : Row) : Expr → Value
  | .literal v => v
  | .parameter index => (s.params[index - 1]?).getD .null
  | .name n mayBeText =>
    match s.referent? n mayBeText with
    | some (.column index _) => (row.values[index]?).getD .null
    | some .rowNumber => .integer row.number
    | some (.constant v) => v
    | none => .null
  | .negate e => (eval s row e).negated
  | .not e => .ofTruth ((eval s row e).truth?.map (!·))
  | .binary op left right =>
    apply op (left.affinity? s) (right.affinity? s) (eval s row left) (eval s row right)
  | .countRows => .integer s.count

/-- Whether a row passes a filter. -/
def passes (s : Scope) (filter : Option Expr) (row : Row) : Bool :=
  match filter with
  | none => true
  | some e => (eval s row e).truth? = some true

end Expr

end NamedStores.Sqlite
