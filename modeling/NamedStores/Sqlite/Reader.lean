/-
Reading statements from tokens, one at a time, each up to its semicolon or the end of the text.
The first token that no statement has at its place is the one to blame; where tokens are
missing at the end, the text is incomplete.
-/
import NamedStores.Sqlite.Problem
import NamedStores.Sqlite.Statement
import NamedStores.Sqlite.Token

namespace NamedStores.Sqlite

/-- Readers take tokens from the front of those left. -/
abbrev Reader := StateT (List Token) (Except Problem)

namespace Reader

/-! ## Single tokens -/

/-- The error of the token at hand. -/
def unexpected {α : Type} : Reader α := fun ts =>
  match ts with
  | [] => .error .incomplete
  | t :: _ => .error (if t.kind = .illegal then .unrecognized t.text else .syntaxNear t.text)

def next? : Reader (Option Token) := do return (← get).head?

def skip : Reader Unit := modify (·.drop 1)

def isWord (word : String) (t : Token) : Bool :=
  t.kind = .word && Case.lowerAsciiText t.text = word

def isSymbol (symbol : String) (t : Token) : Bool := t.kind = .symbol && t.text = symbol

/-- Takes a token if it is the one that is asked for, and tells whether it was. -/
def accept (isWanted : Token → Bool) : Reader Bool := do
  match ← next? with
  | some t =>
    if isWanted t then
      skip
      return true
    else return false
  | none => return false

def expect (isWanted : Token → Bool) : Reader Unit := do
  if ← accept isWanted then return () else unexpected

def word (w : String) : Reader Unit := expect (isWord w)

def symbol (s : String) : Reader Unit := expect (isSymbol s)

/-- Words that cannot be names unless quoted. -/
def reserved : List String := [
  "add", "all", "alter", "and", "as", "autoincrement", "between", "case", "check", "collate",
  "commit", "constraint", "create", "default", "deferrable", "delete", "distinct", "drop",
  "else", "escape", "exists", "foreign", "from", "group", "having", "in", "index", "insert",
  "intersect", "into", "is", "isnull", "join", "limit", "not", "nothing", "notnull", "null",
  "on", "or", "order", "primary", "references", "returning", "select", "set", "table", "then",
  "to", "transaction", "union", "unique", "update", "using", "values", "when", "where"]

/-- The name that a token is, if it is one. -/
def nameOf? (t : Token) : Option String :=
  match t.kind with
  | .word => if reserved.contains (Case.lowerAsciiText t.text) then none else some t.text
  | .name text _ => some text
  | _ => none

/-- A name, with its token as it is written. -/
def writtenName : Reader (String × String) := do
  match ← next? with
  | some t =>
    match nameOf? t with
    | some n =>
      skip
      return (n, t.text)
    | none => unexpected
  | none => unexpected

def name : Reader String := do return (← writtenName).1

/-- What a reader reads, with the text that it reads it from. -/
def withText {α : Type} (r : Reader α) : Reader (α × String) := do
  let before ← get
  let a ← r
  let after ← get
  return (a, Token.spanText (before.take (before.length - after.length)))

/-- One thing or more with commas between them. -/
def separated {α : Type} (item : Reader α) : Nat → Reader (List α)
  | 0 => unexpected
  | fuel + 1 => do
    let a ← item
    if ← accept (isSymbol ",") then return a :: (← separated item fuel) else return [a]

def list {α : Type} (item : Reader α) : Reader (List α) := do
  separated item ((← get).length + 1)

def parenthesized {α : Type} (r : Reader α) : Reader α := do
  symbol "("
  let a ← r
  symbol ")"
  return a

/-! ## Expressions -/

/-- The operators by how tightly they bind, the loosest first. `NOT` binds between `AND` and `=`. -/
def operators : List (Nat × Operator × List String) := [
  (1, .or, ["or"]), (2, .and, ["and"]), (4, .equal, ["=", "=="]), (4, .unequal, ["<>", "!="]),
  (5, .less, ["<"]), (5, .lessEqual, ["<="]), (5, .greater, [">"]), (5, .greaterEqual, [">="]),
  (6, .plus, ["+"]), (6, .minus, ["-"]), (7, .times, ["*"])]

def operator? (t : Token) : Option (Nat × Operator) :=
  (operators.find? fun o => o.2.2.any fun s => isSymbol s t || isWord s t).map fun o =>
    (o.1, o.2.1)

/-- The digits of the least integer, which only their sign makes one. -/
def isLeastMagnitude (t : Token) : Bool := Integer.natural? t.chars = some 0x8000000000000000

mutual

/-- An expression whose operators bind at least as tightly as a level. -/
def exprAt : Nat → Nat → Reader Expr
  | 0, _ => unexpected
  | fuel + 1, level => do
    let left ← operand fuel
    climb fuel level left

/-- Goes on with the operators after an expression. -/
def climb : Nat → Nat → Expr → Reader Expr
  | 0, _, _ => unexpected
  | fuel + 1, level, left => do
    match (← next?).bind operator? with
    | some (binding, op) =>
      if level ≤ binding then
        skip
        let right ← exprAt fuel (binding + 1)
        climb fuel level (.binary op left right)
      else return left
    | none => return left

def operand : Nat → Reader Expr
  | 0 => unexpected
  | fuel + 1 => do
    match ← next? with
    | none => unexpected
    | some t =>
      match t.kind with
      | .literal v =>
        skip
        return .literal v
      | .parameter index =>
        skip
        return .parameter (index.getD 0)
      | .name n mayBeText =>
        skip
        return .name n mayBeText
      | .symbol =>
        if ← accept (isSymbol "-") then
          if ← accept isLeastMagnitude then return .literal (.integer (-0x8000000000000000))
          else return .negate (← operand fuel)
        else if ← accept (isSymbol "+") then operand fuel
        else parenthesized (exprAt fuel 0)
      | .word =>
        if ← accept (isWord "null") then return .literal .null
        else if ← accept (isWord "not") then return .not (← exprAt fuel 3)
        else
          let n ← name
          if isWord "count" t then
            if ← accept (isSymbol "(") then
              symbol "*"
              symbol ")"
              return .countRows
            else return .name n false
          else return .name n false
      | .illegal => unexpected

end

def expr : Reader Expr := do exprAt (3 * (← get).length + 3) 0

/-! ## Queries -/

/-- The name after `AS`, which may be left out. -/
def alias? : Reader (Option String) := do
  let isText (t : Token) : Option String :=
    match t.kind with
    | .literal (.text s) => some s
    | _ => nameOf? t
  if ← accept (isWord "as") then
    match (← next?).bind isText with
    | some n =>
      skip
      return some n
    | none => unexpected
  else
    match (← next?).bind isText with
    | some n =>
      skip
      return some n
    | none => return none

def resultColumn : Reader ResultColumn := do
  if ← accept (isSymbol "*") then return .all
  else
    let (e, written) ← withText expr
    return .expr e (← alias?) written

def optional {α : Type} (start : String) (r : Reader α) : Reader (Option α) := do
  if ← accept (isWord start) then return some (← r) else return none

def sortKey : Reader SortKey := do
  let e ← expr
  if ← accept (isWord "desc") then return ⟨e, true⟩
  else
    let _ ← accept (isWord "asc")
    return ⟨e, false⟩

def select : Reader Select := do
  word "select"
  let columns ← list resultColumn
  let source ← optional "from" name
  let filter ← optional "where" expr
  let order ← optional "order" do
    word "by"
    list sortKey
  return ⟨columns, source, filter, order.getD []⟩

def recursion : Reader Recursion := do
  word "with"
  let _ ← accept (isWord "recursive")
  let n ← name
  let columns ← parenthesized (list name)
  word "as"
  parenthesized do
    let first ← select
    word "union"
    word "all"
    return ⟨n, columns, first, ← select⟩

/-! ## Definitions -/

/-- The words of a type. -/
def typeWords : Nat → Reader Unit
  | 0 => return ()
  | fuel + 1 => do
    match (← next?).bind nameOf? with
    | some _ =>
      skip
      typeWords fuel
    | none => return ()

def signedNumber : Reader Unit := do
  let _ ← accept fun t => isSymbol "-" t || isSymbol "+" t
  expect fun t => match t.kind with
    | .literal (.integer _) => true
    | .literal (.real _) => true
    | _ => false

/-- A declared type: words, and maybe a size of one or two numbers behind them. -/
def columnType : Reader String := do
  let ((), text) ← withText do
    let before := (← get).length
    typeWords before
    if (← get).length < before then
      if ← accept (isSymbol "(") then
        signedNumber
        if ← accept (isSymbol ",") then signedNumber
        symbol ")"
  return text

/-- The constraints after a column's type. -/
def constraints : Nat → ColumnDefinition → Reader ColumnDefinition
  | 0, c => return c
  | fuel + 1, c => do
    if ← accept (isWord "not") then
      word "null"
      constraints fuel { c with notNull := true }
    else if ← accept (isWord "null") then constraints fuel c
    else if ← accept (isWord "unique") then
      constraints fuel { c with
        uniqueness := if c.uniqueness = .free then .unique else c.uniqueness }
    else if ← accept (isWord "primary") then
      word "key"
      let isNumber := Case.lowerAsciiText c.declared = "integer"
      constraints fuel { c with uniqueness := if isNumber then .rowNumber else .primaryKey }
    else return c

def columnDefinition : Reader ColumnDefinition := do
  let n ← name
  let declared ← columnType
  constraints (← get).length ⟨n, declared, false, .free⟩

/-! ## Statements -/

def createTable : Reader Statement := do
  word "create"
  word "table"
  let (n, written) ← writtenName
  return .createTable n written (← parenthesized (list columnDefinition))

def insert : Reader Statement := do
  word "insert"
  word "into"
  let table ← name
  let columns ←
    if (← next?).any (isSymbol "(") then some <$> parenthesized (list name) else pure none
  word "values"
  return .insert table columns (← list (parenthesized (list expr)))

def assignment : Reader (String × Expr) := do
  let n ← name
  symbol "="
  return (n, ← expr)

def update : Reader Statement := do
  word "update"
  let table ← name
  word "set"
  let assignments ← list assignment
  return .update table assignments (← optional "where" expr)

def delete : Reader Statement := do
  word "delete"
  word "from"
  let table ← name
  return .delete table (← optional "where" expr)

def statement : Reader Statement := do
  match (← next?).map fun t => if t.kind = .word then Case.lowerAsciiText t.text else "" with
  | some "create" => createTable
  | some "drop" => do
    word "drop"
    word "table"
    return .dropTable (← name)
  | some "insert" => insert
  | some "update" => update
  | some "delete" => delete
  | some "select" => return .select none (← select)
  | some "with" => do
    let r ← recursion
    return .select (some r) (← select)
  | _ => unexpected

/-- The next statement with the tokens after it, if there is one. -/
def nextStatement? (ts : List Token) : Except Problem (Option (Statement × List Token)) :=
  match ts.dropWhile (isSymbol ";") with
  | [] => .ok none
  | ts =>
    match statement ts with
    | .error p => .error p
    | .ok (s, []) => .ok (some (s, []))
    | .ok (s, t :: ts) =>
      if isSymbol ";" t then .ok (some (s, ts))
      else .error (if t.kind = .illegal then .unrecognized t.text else .syntaxNear t.text)

end Reader

end NamedStores.Sqlite
