/-
Values of PostgreSQL: how its cells are read, type by type, how parameters are bound, and how
many rows a completion tag says were changed. Times without a zone are kept as they are;
those with one are shown in UTC. In binary, dates count days and times microseconds from the
start of the year 2000.
-/
import NamedStores.Sql.Calendar
import NamedStores.Sql.Cell
import NamedStores.Sql.DriverError
import NamedStores.Sql.Numeric
import NamedStores.Sql.Param
import NamedStores.Text.Hex
import NamedStores.Text.Split

namespace NamedStores.Sql.Postgres

/-! ## Cells -/

def boolean : Format → Bytes → Json
  | .binary, bs => Json.ofOption (bs.head?.map fun b => .bool (b ≠ 0))
  | .text, bs =>
    if bs = Utf8.ofString "t" then .bool true
    else if bs = Utf8.ofString "f" then .bool false
    else .null

/-- A signed number of so many octets. -/
def integer (width : Nat) : Format → Bytes → Json
  | .binary, bs =>
    if bs.length = width then .integer (Word.signed width (Word.bigValue bs)) else .null
  | .text, bs =>
    let limit := Int.ofNat (Nat.pow 256 width / 2)
    Cell.ofChars (fun cs => (Integer.within? (-limit) limit cs).map .integer) bs

def single : Format → Bytes → Json
  | .binary, bs =>
    if bs.length = 4 then Json.ofDouble (.ofSingleBits (Word.bigValue bs)) else .null
  | .text, bs => Cell.float Double.ofDecimalSingle bs

def double : Format → Bytes → Json
  | .binary, bs =>
    if bs.length = 8 then Json.ofDouble ⟨.ofNat (Word.bigValue bs)⟩ else .null
  | .text, bs => Cell.float Double.ofDecimal bs

def numeric : Format → Bytes → Json
  | .binary, bs => Json.ofText? (Numeric.text? bs)
  | .text, bs => Cell.text bs

/-- In binary the document stands after an octet that tells its version. -/
def binaryDocument : Format → Bytes → Json
  | .binary, version :: bs => if version = 1 then Cell.document bs else .null
  | .binary, [] => .null
  | .text, bs => Cell.document bs

/-- In text, octets are hexadecimal digits after `\x`. -/
def octets : Format → Bytes → Json
  | .binary, bs => Cell.octets bs
  | .text, bs => Cell.ofChars (fun
    | '\\' :: 'x' :: ds => (Hex.decode? ds).map Cell.octets
    | _ => none) bs

def date : Format → Bytes → Json
  | .binary, bs =>
    if bs.length = 4 then
      .string (Calendar.dateText (Calendar.ofDaysSince2000 (Word.signed 4 (Word.bigValue bs))))
    else .null
  | .text, bs => Cell.ofChars (fun cs =>
      (Calendar.whole Calendar.readDate cs).map fun d => .string (Calendar.dateText d)) bs

def time : Format → Bytes → Json
  | .binary, bs =>
    if bs.length = 8 then
      .string (Calendar.timeText (Calendar.ofMicros (Word.signed 8 (Word.bigValue bs))))
    else .null
  | .text, bs => Cell.ofChars (fun cs =>
      (Calendar.whole Calendar.readTime cs).map fun t => .string (Calendar.timeText t)) bs

/-- A moment in binary, shown by `shown`. -/
def binaryMoment (shown : DateTime → String) (bs : Bytes) : Json :=
  if bs.length = 8 then
    .string (shown (Calendar.ofMicrosSince2000 (Word.signed 8 (Word.bigValue bs))))
  else .null

/-- A text with a plus sign may carry an offset, which changes nothing. -/
def plainMoment? (cs : List Char) : Option DateTime :=
  if cs.contains '+' then (Calendar.whole Calendar.readWithOffset cs).map (·.1)
  else Calendar.whole Calendar.readDateTime cs

def timestamp : Format → Bytes → Json
  | .binary, bs => binaryMoment Calendar.plainText bs
  | .text, bs => Cell.ofChars (fun cs =>
      (plainMoment? cs).map fun t => .string (Calendar.plainText t)) bs

def zonedTimestamp : Format → Bytes → Json
  | .binary, bs => binaryMoment Calendar.utcText bs
  | .text, bs => Cell.ofChars (fun cs =>
      (Calendar.moment? cs).map fun t => .string (Calendar.utcText t)) bs

/-- A cell of a column of the named type; types not listed are shown as null. -/
def cell (typeName : String) (f : Format) (bs : Bytes) : Json :=
  match typeName with
  | "BOOL" => boolean f bs
  | "INT2" => integer 2 f bs
  | "INT4" => integer 4 f bs
  | "INT8" => integer 8 f bs
  | "FLOAT4" => single f bs
  | "FLOAT8" => double f bs
  | "NUMERIC" => numeric f bs
  | "JSON" => Cell.document bs
  | "JSONB" => binaryDocument f bs
  | "BYTEA" => octets f bs
  | "TEXT" => Cell.text bs
  | "VARCHAR" => Cell.text bs
  | "CHAR" => Cell.text bs
  | "NAME" => Cell.text bs
  | "UNKNOWN" => Cell.text bs
  | "DATE" => date f bs
  | "TIME" => time f bs
  | "TIMESTAMP" => timestamp f bs
  | "TIMESTAMPTZ" => zonedTimestamp f bs
  | _ => .null

/-! ## Statements -/

/-- The type and the octets that a parameter is bound as. -/
def bound : Param → String × Option Bytes
  | .null => ("TEXT", none)
  | .bool b => ("BOOL", some [if b then 1 else 0])
  | .int n => ("INT8", some (Word.big 8 (Word.complement 8 n.toInt)))
  | .float x => ("FLOAT8", some (Word.big 8 x.word))
  | .text s => ("TEXT", some (Utf8.ofString s))
  | .bytes bs => ("BYTEA", some bs)

/-- The rows a completion tag counts: the number that its last word begins with, if it has one. -/
def affected (tag : String) : Nat :=
  match Split.last? ' ' tag.toList with
  | none => 0
  | some (_, word) =>
    let digits := match word with
      | '+' :: ds => ds
      | ds => ds
    let n := Integer.digitsValue (digits.takeWhile Integer.isDigit)
    if n < 0x10000000000000000 then n else 0

/-- The error of a server that refuses with a code and a message. -/
def refusal (code message : String) : DriverError := .database message message (some code)

end NamedStores.Sql.Postgres
