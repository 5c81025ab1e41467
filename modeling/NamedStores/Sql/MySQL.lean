/-
Values of MySQL: what a column's definition makes of its type, how its cells are read, and how
parameters are bound. Numbers are sent with the least significant octet first. Moments are
shown in UTC; the zero date is no date.
-/
import NamedStores.Sql.Calendar
import NamedStores.Sql.Cell
import NamedStores.Sql.DriverError
import NamedStores.Sql.Param
import NamedStores.Sql.ResultSet

namespace NamedStores.Sql.MySQL

/-- A column as the server defines it. -/
structure Definition where
  name : String
  code : Nat
  flags : Nat
  length : Nat

namespace Definition

def isUnsigned (d : Definition) : Bool := d.flags / 32 % 2 = 1

def isBinary (d : Definition) : Bool := d.flags / 128 % 2 = 1

def isEnumeration (d : Definition) : Bool := d.flags / 256 % 2 = 1

/-- The name of an integer type, which tells whether it has a sign. -/
def integerName (d : Definition) (name : String) : String :=
  if d.isUnsigned then name ++ " UNSIGNED" else name

/-- The name of a type that holds text, or octets if it is binary. -/
def stringName (d : Definition) (text octets : String) : String :=
  if d.isBinary then octets else text

def typeName (d : Definition) : String :=
  match d.code with
  | 1 => if d.length = 1 then "BOOLEAN" else d.integerName "TINYINT"
  | 2 => d.integerName "SMALLINT"
  | 3 => d.integerName "INT"
  | 9 => d.integerName "MEDIUMINT"
  | 8 => d.integerName "BIGINT"
  | 4 => "FLOAT"
  | 5 => "DOUBLE"
  | 6 => "NULL"
  | 7 => "TIMESTAMP"
  | 10 => "DATE"
  | 11 => "TIME"
  | 12 => "DATETIME"
  | 13 => "YEAR"
  | 16 => "BIT"
  | 245 => "JSON"
  | 247 => "ENUM"
  | 248 => "SET"
  | 249 => d.stringName "TINYTEXT" "TINYBLOB"
  | 250 => d.stringName "MEDIUMTEXT" "MEDIUMBLOB"
  | 251 => d.stringName "LONGTEXT" "LONGBLOB"
  | 252 => d.stringName "TEXT" "BLOB"
  | 253 => d.stringName "VARCHAR" "VARBINARY"
  | 15 => d.stringName "VARCHAR" "VARBINARY"
  | 254 => if d.isEnumeration then "ENUM" else d.stringName "CHAR" "BINARY"
  | 255 => "GEOMETRY"
  | _ => "DECIMAL"

def column (d : Definition) : Column := ⟨d.name, d.typeName⟩

end Definition

/-! ## Cells -/

/-- A number with a sign, of 64 bits as text and of the octets there are in binary. -/
def signed? : Format → Bytes → Option Int
  | .binary, bs => some (Word.signed bs.length (Word.littleValue bs))
  | .text, bs => (Utf8.decode? bs).bind Integer.signed64?

/-- A number of 64 bits without a sign, which may be written with a plus sign. -/
def unsigned? : Format → Bytes → Option Int
  | .binary, bs => some (Word.littleValue bs)
  | .text, bs => ((Utf8.decode? bs).filter (·.head? ≠ some '-')).bind (Integer.within? 0 0x10000000000000000)

def integer (d : Definition) (f : Format) (bs : Bytes) : Json :=
  Json.ofOption ((if d.isUnsigned then unsigned? f bs else signed? f bs).map .integer)

/-- Any number of 8 bits but 0 is true. -/
def boolean (f : Format) (bs : Bytes) : Json :=
  let small := (signed? f bs).filter fun n => -128 ≤ n && n < 128
  Json.ofOption (small.map fun n => .bool (n ≠ 0))

def float : Format → Bytes → Json
  | .text, bs => Cell.float Double.ofDecimal bs
  | .binary, bs =>
    if bs.length = 4 then Json.ofDouble (.ofSingleBits (Word.littleValue bs))
    else if bs.length = 8 then Json.ofDouble ⟨.ofNat (Word.littleValue bs)⟩
    else .null

/-- The date that the first four octets stand for, and the octets after them. -/
def binaryDate? : Bytes → Option (Date × Bytes)
  | a :: b :: month :: day :: rest =>
    (Calendar.date? (Word.littleValue [a, b]) month.toNat day.toNat).map (·, rest)
  | _ => none

/-- Hour, minute and second, and microseconds if there are any; midnight if there is nothing. A
second more of microseconds makes the last second of a minute a leap second. -/
def binaryClock? : Bytes → Option ClockTime
  | [] => some ⟨0, 0⟩
  | hour :: minute :: second :: rest =>
    let micros := Word.littleValue (rest.take 4)
    if hour < 24 ∧ minute < 60 ∧ second < 60 ∧
        micros < (if second = 59 then 2000000 else 1000000) then
      some ⟨hour.toNat * 3600 + minute.toNat * 60 + second.toNat, micros * 1000⟩
    else none
  | _ => none

def date : Format → Bytes → Json
  | .binary, bs => Json.ofOption ((binaryDate? bs).map fun (d, _) => .string (Calendar.dateText d))
  | .text, bs => Cell.ofChars (fun cs =>
      (Calendar.whole Calendar.readDate cs).map fun d => .string (Calendar.dateText d)) bs

/-- In binary a time of a day follows its sign, which is ignored, and a number of days, which is 0. -/
def time : Format → Bytes → Json
  | .binary, bs =>
    let clock : Option ClockTime := match bs with
      | [] => some ⟨0, 0⟩
      | _ :: rest =>
        if Word.littleValue (rest.take 4) = 0 then binaryClock? (rest.drop 4) else none
    Json.ofOption (clock.map fun t => .string (Calendar.timeText t))
  | .text, bs => Cell.ofChars (fun cs =>
      (Calendar.whole Calendar.readTime cs).map fun t => .string (Calendar.timeText t)) bs

def moment : Format → Bytes → Json
  | .binary, bs =>
    let t : Option DateTime := do
      let (d, rest) ← binaryDate? bs
      let clock ← binaryClock? rest
      return ⟨d, clock⟩
    Json.ofOption (t.map fun t => .string (Calendar.utcText t))
  | .text, bs => Cell.ofChars (fun cs =>
      (Calendar.whole Calendar.readDateTime cs).map fun t => .string (Calendar.utcText t)) bs

/-- A cell of a column; types not listed are shown as null. -/
def cell (d : Definition) (f : Format) (bs : Bytes) : Json :=
  match d.code with
  | 1 => if d.length = 1 then boolean f bs else integer d f bs
  | 2 => integer d f bs
  | 3 => integer d f bs
  | 8 => integer d f bs
  | 9 => integer d f bs
  | 4 => float f bs
  | 5 => float f bs
  | 0 => Cell.text bs
  | 246 => Cell.text bs
  | 245 => Cell.document bs
  | 10 => date f bs
  | 11 => time f bs
  | 7 => moment f bs
  | 12 => moment f bs
  | 247 => Cell.text bs
  | 254 => if d.isBinary && !d.isEnumeration then Cell.octets bs else Cell.text bs
  | 15 => if d.isBinary then Cell.octets bs else Cell.text bs
  | 249 => if d.isBinary then Cell.octets bs else Cell.text bs
  | 250 => if d.isBinary then Cell.octets bs else Cell.text bs
  | 251 => if d.isBinary then Cell.octets bs else Cell.text bs
  | 252 => if d.isBinary then Cell.octets bs else Cell.text bs
  | 253 => if d.isBinary then Cell.octets bs else Cell.text bs
  | _ => .null

/-! ## Statements -/

/-- Parameters as they are sent: a bit for each null, the types, and the values that are not null. -/
structure Bound where
  nulls : Bytes
  types : Bytes
  values : Bytes

/-- One octet for each eight flags, the first flag lowest. -/
def bitmap (flags : List Bool) : Bytes :=
  (List.range ((flags.length + 7) / 8)).map fun i =>
    let bits := (flags.drop (8 * i)).take 8
    .ofNat (bits.foldr (fun b n => 2 * n + if b then 1 else 0) 0)

/-- Octets after their number, which takes three octets from 251 on. -/
def counted (bs : Bytes) : Bytes :=
  if bs.length < 251 then Word.little 1 bs.length ++ bs
  else 0xFC :: Word.little 2 bs.length ++ bs

def typeOf : Param → Bytes
  | .null => [0xFD, 0]
  | .bool _ => [1, 0x80]
  | .int _ => [8, 0]
  | .float _ => [5, 0]
  | .text _ => [0xFD, 0]
  | .bytes _ => [0xFC, 0]

def valueOf : Param → Bytes
  | .null => []
  | .bool b => [if b then 1 else 0]
  | .int n => Word.little 8 (Word.complement 8 n.toInt)
  | .float x => Word.little 8 x.word
  | .text s => counted (Utf8.ofString s)
  | .bytes bs => counted bs

def bound (ps : List Param) : Bound :=
  ⟨bitmap (ps.map (· = .null)), ps.flatMap typeOf, ps.flatMap valueOf⟩

/-- A completion counts the rows in 16 bits, and one after a result has none to count. -/
def affected (count : Nat) (columns : List Definition) : Nat :=
  if columns.isEmpty then count % 0x10000 else 0

/-- The error of a server that refuses with a number, a state and a message. -/
def refusal (number state message : String) : DriverError :=
  .database s!"{number} ({state}): {message}" message (some state)

end NamedStores.Sql.MySQL
