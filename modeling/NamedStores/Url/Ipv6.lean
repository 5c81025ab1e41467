/-
IPv6 addresses as text: eight pieces of 16 bits in hex with colons between, a run of zero
pieces written as `::` once, and the last two pieces perhaps as four decimal numbers. They
are written back in one way only: lower-case digits, no leading zeros, and the first longest
run of at least two zero pieces as `::`.
-/
import NamedStores.Text.Hex

namespace NamedStores.Ipv6

def isDigit (c : Char) : Bool := '0' ≤ c && c ≤ '9'

/-- The number that digits write in a base. -/
def numberOf (base : Nat) (ds : List Char) : Nat :=
  ds.foldl (fun n c => n * base + (Hex.value? c).getD 0) 0

/-- A decimal number below 256 without leading zeros, and what follows it. -/
def byteNumber (cs : List Char) : Option (Nat × List Char) :=
  let ds := cs.takeWhile isDigit
  let n := numberOf 10 ds
  if ds = [] ∨ 255 < n ∨ (1 < ds.length ∧ ds.head? = some '0') then none
  else some (n, cs.dropWhile isDigit)

/-- Four decimal numbers with points between, to the end of the text: two pieces. -/
def decimalTail (cs : List Char) : Option (List Nat) := do
  let (a, r) ← byteNumber cs
  let (b, r) ← point r
  let (c, r) ← point r
  let (d, r) ← point r
  if r = [] then some [a * 256 + b, c * 256 + d] else none
where
  point : List Char → Option (Nat × List Char)
    | '.' :: r => byteNumber r
    | _ => none

/-- The pieces before `::` and those after it, if there is one. -/
structure Pieces where
  before : List Nat
  after : Option (List Nat)

namespace Pieces

def add (p : Pieces) (ns : List Nat) : Pieces :=
  match p.after with
  | none => ⟨p.before ++ ns, none⟩
  | some tail => ⟨p.before, some (tail ++ ns)⟩

/-- How many pieces are taken, a `::` counting as one. -/
def count (p : Pieces) : Nat :=
  match p.after with
  | none => p.before.length
  | some tail => p.before.length + 1 + tail.length

/-- All eight pieces. -/
def fill (p : Pieces) : Option (List Nat) :=
  match p.after with
  | none => if p.before.length = 8 then some p.before else none
  | some tail => some (p.before ++ List.replicate (8 - p.before.length - tail.length) 0 ++ tail)

end Pieces

/-- Reads pieces to the end of the text. Every call consumes a character or ends. -/
def readPieces : Nat → Pieces → List Char → Option Pieces
  | _, p, [] => some p
  | 0, _, _ => none
  | fuel + 1, p, c :: cs =>
    if p.count = 8 then none
    else if c = ':' then
      match p.after with
      | some _ => none
      | none => readPieces fuel ⟨p.before, some []⟩ cs
    else
      let ds := ((c :: cs).take 4).takeWhile fun c => (Hex.value? c).isSome
      match (c :: cs).drop ds.length with
      | [] => some (p.add [numberOf 16 ds])
      | '.' :: _ =>
        if ds = [] ∨ 6 < p.count then none else (decimalTail (c :: cs)).map p.add
      | ':' :: more => if more = [] then none else readPieces fuel (p.add [numberOf 16 ds]) more
      | _ => none

def ofChars? (cs : List Char) : Option (List Nat) :=
  match cs with
  | [] => none
  | [_] => none
  | ':' :: ':' :: rest => (readPieces rest.length ⟨[], some []⟩ rest).bind Pieces.fill
  | ':' :: _ => none
  | _ => (readPieces cs.length ⟨[], none⟩ cs).bind Pieces.fill

/-- The zeros at the start of a list. -/
def zeroRun (ns : List Nat) : Nat := (ns.takeWhile (· = 0)).length

/-- Start and length of the first longest run of at least two zeros. -/
def longestRun (ns : List Nat) : Option (Nat × Nat) :=
  (List.range ns.length).foldl
    (fun (best : Option (Nat × Nat)) (i : Nat) =>
      let n := zeroRun (ns.drop i)
      match best with
      | none => if 2 ≤ n then some (i, n) else none
      | some (_, m) => if m < n then some (i, n) else best)
    none

def colons : List Nat → List Char
  | [] => []
  | [n] => Hex.numeral n
  | n :: ns => Hex.numeral n ++ ':' :: colons ns

def toChars (ns : List Nat) : List Char :=
  match longestRun ns with
  | none => colons ns
  | some (i, n) => colons (ns.take i) ++ [':', ':'] ++ colons (ns.drop (i + n))

end NamedStores.Ipv6
