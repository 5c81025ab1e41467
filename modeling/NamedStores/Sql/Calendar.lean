/-
Dates and times of day in the Gregorian calendar, extended to all years. Texts are read field
by field: blanks may stand before a number, a year has four digits or any number of them after
a sign, and a second 60 is a leap second. Written, a year outside 0 to 9999 has a sign, and a
fraction of a second has 3, 6 or 9 digits, the fewest that are exact.
-/
import NamedStores.Text.Blank
import NamedStores.Text.Integer

namespace NamedStores.Sql

structure Date where
  year : Int
  month : Nat
  day : Nat
  deriving DecidableEq

/-- A time of day: seconds since midnight, and nanoseconds, a whole second more in a leap second. -/
structure ClockTime where
  seconds : Nat
  nanos : Nat
  deriving DecidableEq

structure DateTime where
  date : Date
  time : ClockTime
  deriving DecidableEq

namespace Calendar

def isLeap (year : Int) : Bool :=
  year % 4 = 0 && (year % 100 != 0 || year % 400 = 0)

def daysInMonth (year : Int) (month : Nat) : Nat :=
  if month = 2 then (if isLeap year then 29 else 28)
  else if month = 4 ∨ month = 6 ∨ month = 9 ∨ month = 11 then 30
  else 31

/-- A day of the calendar, in the years that can be held. -/
def date? (year : Int) (month day : Nat) : Option Date :=
  if -262143 ≤ year ∧ year ≤ 262142 ∧ 1 ≤ month ∧ month ≤ 12 ∧ 1 ≤ day ∧
      day ≤ daysInMonth year month then some ⟨year, month, day⟩
  else none

/-- Days since the first of January 1970. Years are counted from March, in eras of 400. -/
def dayNumber (d : Date) : Int :=
  let y := if d.month ≤ 2 then d.year - 1 else d.year
  let m := if d.month ≤ 2 then d.month + 9 else d.month - 3
  let dayOfYear := (153 * m + 2) / 5 + d.day - 1
  let yearOfEra := y % 400
  y / 400 * 146097 + yearOfEra * 365 + yearOfEra / 4 - yearOfEra / 100 + dayOfYear - 719468

def ofDayNumber (n : Int) : Date :=
  let z := n + 719468
  let dayOfEra := (z % 146097).toNat
  let yearOfEra := (dayOfEra - dayOfEra / 1460 + dayOfEra / 36524 - dayOfEra / 146096) / 365
  let dayOfYear := dayOfEra - (365 * yearOfEra + yearOfEra / 4 - yearOfEra / 100)
  let m := (5 * dayOfYear + 2) / 153
  let month := if m < 10 then m + 3 else m - 9
  let year := z / 146097 * 400 + yearOfEra
  ⟨if month ≤ 2 then year + 1 else year, month, dayOfYear - (153 * m + 2) / 5 + 1⟩

/-- Days since the first of January 2000. -/
def ofDaysSince2000 (n : Int) : Date := ofDayNumber (n + 10957)

/-- A time of day from microseconds since midnight, in whatever day they end. -/
def ofMicros (us : Int) : ClockTime :=
  let us := (us % 86400000000).toNat
  ⟨us / 1000000, us % 1000000 * 1000⟩

/-- Microseconds since the start of the year 2000. -/
def ofMicrosSince2000 (us : Int) : DateTime :=
  ⟨ofDaysSince2000 (us / 86400000000), ofMicros us⟩

/-- The same moment with so many seconds less on the clock. -/
def minusSeconds (t : DateTime) (seconds : Int) : DateTime :=
  let total := dayNumber t.date * 86400 + t.time.seconds - seconds
  ⟨ofDayNumber (total / 86400), ⟨(total % 86400).toNat, t.time.nanos⟩⟩

/-! ## Writing -/

def padded (width n : Nat) : String :=
  let ds := Nat.toDigits 10 n
  String.ofList (List.replicate (width - ds.length) '0' ++ ds)

def dateText (d : Date) : String :=
  let sign := if d.year < 0 then "-" else if 9999 < d.year then "+" else ""
  let year := padded 4 d.year.natAbs
  let month := padded 2 d.month
  let day := padded 2 d.day
  s!"{sign}{year}-{month}-{day}"

def fractionText (nanos : Nat) : String :=
  if nanos = 0 then ""
  else if nanos % 1000000 = 0 then "." ++ padded 3 (nanos / 1000000)
  else if nanos % 1000 = 0 then "." ++ padded 6 (nanos / 1000)
  else "." ++ padded 9 nanos

def timeText (t : ClockTime) : String :=
  let leap := if 1000000000 ≤ t.nanos then 1 else 0
  let hours := padded 2 (t.seconds / 3600)
  let minutes := padded 2 (t.seconds / 60 % 60)
  let seconds := padded 2 (t.seconds % 60 + leap)
  let fraction := fractionText (t.nanos % 1000000000)
  s!"{hours}:{minutes}:{seconds}{fraction}"

/-- Date and time with a blank between. -/
def plainText (t : DateTime) : String :=
  dateText t.date ++ " " ++ timeText t.time

/-- Date and time of a moment in UTC, with a `T` between and the offset behind. -/
def utcText (t : DateTime) : String :=
  dateText t.date ++ "T" ++ timeText t.time ++ "+00:00"

/-! ## Reading -/

abbrev Reader (α : Type) := List Char → Option (α × List Char)

/-- A number of at most so many digits, at least one. -/
def number (width : Nat) (cs : List Char) : Option (Nat × List Char) :=
  let ds := (cs.take width).takeWhile Integer.isDigit
  if ds = [] then none else some (Integer.digitsValue ds, cs.drop ds.length)

/-- A number in a field, before which blanks may stand. -/
def field (width : Nat) (cs : List Char) : Option (Nat × List Char) :=
  number width (cs.dropWhile Blank.isBlank)

def yearField (cs : List Char) : Option (Int × List Char) :=
  match cs.dropWhile Blank.isBlank with
  | '-' :: ds => (number ds.length ds).map fun (n, rest) => (-Int.ofNat n, rest)
  | '+' :: ds => (number ds.length ds).map fun (n, rest) => (Int.ofNat n, rest)
  | ds => (number 4 ds).map fun (n, rest) => (Int.ofNat n, rest)

def mark (c : Char) : List Char → Option (List Char)
  | x :: rest => if x = c then some rest else none
  | [] => none

def readDate (cs : List Char) : Option (Date × List Char) := do
  let (year, cs) ← yearField cs
  let cs ← mark '-' cs
  let (month, cs) ← field 2 cs
  let cs ← mark '-' cs
  let (day, cs) ← field 2 cs
  let date ← date? year month day
  return (date, cs)

/-- A fraction of a second after its point: nine digits count, further ones are dropped. -/
def readFraction (cs : List Char) : Option (Nat × List Char) :=
  match cs with
  | '.' :: rest =>
    let ds := (rest.take 9).takeWhile Integer.isDigit
    if ds = [] then none
    else
      some (Integer.digitsValue ds * Nat.pow 10 (9 - ds.length),
        (rest.drop ds.length).dropWhile Integer.isDigit)
  | _ => some (0, cs)

def readTime (cs : List Char) : Option (ClockTime × List Char) := do
  let (hour, cs) ← field 2 cs
  let cs ← mark ':' cs
  let (minute, cs) ← field 2 cs
  let cs ← mark ':' cs
  let (second, cs) ← field 2 cs
  let (nanos, cs) ← readFraction cs
  if 24 ≤ hour ∨ 60 ≤ minute ∨ 61 ≤ second then none
  else if second = 60 then return (⟨hour * 3600 + minute * 60 + 59, nanos + 1000000000⟩, cs)
  else return (⟨hour * 3600 + minute * 60 + second, nanos⟩, cs)

def readDateTime (cs : List Char) : Option (DateTime × List Char) := do
  let (date, cs) ← readDate cs
  let (time, cs) ← readTime (cs.dropWhile Blank.isBlank)
  return (⟨date, time⟩, cs)

/-- An offset from UTC in seconds: `Z`, or a sign, two digits of hours and maybe two of minutes. -/
def readOffset (cs : List Char) : Option (Int × List Char) :=
  let signed (isNegative : Bool) (cs : List Char) : Option (Int × List Char) := do
    let ds := cs.take 2
    if ds.length < 2 || !ds.all Integer.isDigit then none
    else
      let hours := Integer.digitsValue ds
      let rest := (cs.drop 2).dropWhile fun c => c = ':' || Blank.isBlank c
      let minutes := rest.take 2
      let seconds (m : Nat) : Int :=
        if isNegative then -Int.ofNat (hours * 3600 + m * 60) else hours * 3600 + m * 60
      if rest = [] then some (seconds 0, [])
      else if minutes.length < 2 || !minutes.all Integer.isDigit then none
      else if 60 ≤ Integer.digitsValue minutes then none
      else some (seconds (Integer.digitsValue minutes), rest.drop 2)
  match cs.dropWhile Blank.isBlank with
  | 'Z' :: rest => some (0, rest)
  | 'z' :: rest => some (0, rest)
  | '+' :: rest => signed false rest
  | '-' :: rest => signed true rest
  | c :: rest => if c.toNat = 0x2212 then signed true rest else none
  | [] => none

/-- What a reader makes of a whole text. -/
def whole {α : Type} (read : Reader α) (cs : List Char) : Option α :=
  match read cs with
  | some (a, []) => some a
  | _ => none

/-- A date and time with an offset, which only has to be there. -/
def readWithOffset (cs : List Char) : Option ((DateTime × Int) × List Char) := do
  let (t, cs) ← readDateTime cs
  let (offset, cs) ← readOffset cs
  return ((t, offset), cs)

/-- The moment of a date and time with an offset of less than a day. -/
def moment? (cs : List Char) : Option DateTime := do
  let (t, offset) ← whole readWithOffset cs
  if offset.natAbs < 86400 then return minusSeconds t offset else none

end Calendar

end NamedStores.Sql
