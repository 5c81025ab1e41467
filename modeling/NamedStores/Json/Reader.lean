/-
Reading JSON text from octets. Each reader takes the octets left and gives its value and
what it leaves, or the fault found first. Containers nest 127 deep; the 128th one open is
refused. The fuel, twice the length of the text, is more than any text can use: every two
calls consume an octet.
-/
import NamedStores.Json.Number

namespace NamedStores.Json

def isBlank (b : UInt8) : Bool := b == 32 || b == 9 || b == 10 || b == 13

def skipBlanks (bs : Bytes) : Bytes := bs.dropWhile isBlank

/-- The letters of a word, after its first. -/
def word : List Char → Bytes → Except Fault Bytes
  | [], bs => .ok bs
  | _, [] => hereFault .endOfValue []
  | c :: cs, b :: bs => if asChar b = c then word cs bs else hereFault .expectedWord bs

/-! ## Strings -/

/-- Four hex digits. Fewer than four octets left end the text. -/
def hexEscape : Bytes → Step Nat
  | a :: b :: c :: d :: rest =>
    match Hex.value? (asChar a), Hex.value? (asChar b), Hex.value? (asChar c),
        Hex.value? (asChar d) with
    | some a, some b, some c, some d => .ok (a * 4096 + b * 256 + c * 16 + d, rest)
    | _, _, _, _ => hereFault .invalidEscape rest
  | _ => hereFault .endOfString []

/-- The second half of a pair, after a high surrogate. -/
def lowSurrogate (high : Nat) : Bytes → Step Nat
  | [] => hereFault .endOfString []
  | b :: rest =>
    if asChar b ≠ '\\' then hereFault .halfSurrogate rest
    else
      match rest with
      | [] => hereFault .endOfString []
      | c :: rest =>
        if asChar c ≠ 'u' then hereFault .halfSurrogate rest
        else
          match hexEscape rest with
          | .error f => .error f
          | .ok (low, rest) =>
            if low < 0xDC00 ∨ 0xDFFF < low then hereFault .loneSurrogate rest
            else .ok ((high - 0xD800) * 0x400 + (low - 0xDC00) + 0x10000, rest)

def unicodeEscape (bs : Bytes) : Step Bytes :=
  match hexEscape bs with
  | .error f => .error f
  | .ok (n, rest) =>
    if 0xDC00 ≤ n ∧ n ≤ 0xDFFF then hereFault .loneSurrogate rest
    else if 0xD800 ≤ n ∧ n ≤ 0xDBFF then
      match lowSurrogate n rest with
      | .error f => .error f
      | .ok (n, rest) => .ok (Utf8.octets (Char.ofNat n), rest)
    else .ok (Utf8.octets (Char.ofNat n), rest)

/-- The octet a letter stands for after a backslash. -/
def shortEscape? (b : UInt8) : Option UInt8 :=
  match asChar b with
  | '"' => some b
  | '\\' => some b
  | '/' => some b
  | 'b' => some 8
  | 'f' => some 12
  | 'n' => some 10
  | 'r' => some 13
  | 't' => some 9
  | _ => none

/-- What follows a backslash: the octets it stands for. -/
def unescape : Bytes → Step Bytes
  | [] => hereFault .endOfString []
  | b :: rest =>
    match shortEscape? b with
    | some e => .ok ([e], rest)
    | none => if asChar b = 'u' then unicodeEscape rest else hereFault .invalidEscape rest

/-- The octets up to the closing quote, gathered last first. -/
def stringOctets : Nat → Bytes → Bytes → Step Bytes
  | 0, _, bs => hereFault .endOfString bs
  | _ + 1, _, [] => hereFault .endOfString []
  | fuel + 1, seen, b :: rest =>
    if asChar b = '"' then .ok (seen.reverse, rest)
    else if asChar b = '\\' then
      match unescape rest with
      | .error f => .error f
      | .ok (octets, rest) => stringOctets fuel (octets.reverse ++ seen) rest
    else if b < 0x20 then hereFault .controlCharacter rest
    else stringOctets fuel (b :: seen) rest

/-- A string after its opening quote. Octets that are not UTF-8 are refused at its end. -/
def readString (bs : Bytes) : Step String :=
  match stringOctets (bs.length + 1) [] bs with
  | .error f => .error f
  | .ok (octets, rest) =>
    match Utf8.toString? octets with
    | some s => .ok (s, rest)
    | none => hereFault .invalidUnicode rest

/-! ## Strings passed over -/

/-- What follows a backslash in a string passed over: a pair of halves is not looked for. -/
def passEscape : Bytes → Except Fault Bytes
  | [] => hereFault .endOfString []
  | b :: rest =>
    match shortEscape? b with
    | some _ => .ok rest
    | none =>
      if asChar b = 'u' then (hexEscape rest).map (·.2) else hereFault .invalidEscape rest

/-- Goes past the closing quote. A control character is found without consuming it. -/
def passOctets : Nat → Bytes → Except Fault Bytes
  | 0, bs => hereFault .endOfString bs
  | _ + 1, [] => hereFault .endOfString []
  | fuel + 1, b :: rest =>
    if asChar b = '"' then .ok rest
    else if asChar b = '\\' then
      match passEscape rest with
      | .error f => .error f
      | .ok rest => passOctets fuel rest
    else if b < 0x20 then hereFault .controlCharacter (b :: rest)
    else passOctets fuel rest

def passString (bs : Bytes) : Except Fault Bytes :=
  passOctets (bs.length + 1) bs

/-! ## Between values -/

/-- Whether a container ends or goes on, and the octets left after that. -/
inductive Next where
  | done (rest : Bytes)
  | more (rest : Bytes)

/-- Goes on to the next item of a list, if there is one. -/
def nextItem (first : Bool) (bs : Bytes) : Except Fault Next :=
  match skipBlanks bs with
  | [] => lookFault .endOfList []
  | b :: rest =>
    if asChar b = ']' then .ok (.done rest)
    else if first then .ok (.more (b :: rest))
    else if asChar b = ',' then
      match skipBlanks rest with
      | [] => lookFault .endOfValue []
      | c :: rest =>
        if asChar c = ']' then lookFault .trailingComma (c :: rest) else .ok (.more (c :: rest))
    else lookFault .expectedListEnd (b :: rest)

/-- Goes on to the next key of an object, past its opening quote. -/
def nextKey (first : Bool) (bs : Bytes) : Except Fault Next :=
  match skipBlanks bs with
  | [] => lookFault .endOfObject []
  | b :: rest =>
    if asChar b = '\x7d' then .ok (.done rest)
    else if first then
      if asChar b = '"' then .ok (.more rest) else lookFault .keyNotString (b :: rest)
    else if asChar b = ',' then
      match skipBlanks rest with
      | [] => lookFault .endOfValue []
      | c :: rest =>
        if asChar c = '"' then .ok (.more rest)
        else if asChar c = '\x7d' then lookFault .trailingComma (c :: rest)
        else lookFault .keyNotString (c :: rest)
    else lookFault .expectedObjectEnd (b :: rest)

def colon (bs : Bytes) : Except Fault Bytes :=
  match skipBlanks bs with
  | [] => lookFault .endOfObject []
  | b :: rest => if asChar b = ':' then .ok rest else lookFault .expectedColon (b :: rest)

/-- Nothing but blanks may follow the value of a text. -/
def finish (bs : Bytes) : Except Fault Unit :=
  match skipBlanks bs with
  | [] => .ok ()
  | rest => lookFault .trailingCharacters rest

/-! ## Values -/

/-- A value that is no container, by its first octet. -/
def scalar (b : UInt8) (rest : Bytes) : Step Json :=
  match asChar b with
  | 'n' => (word ['u', 'l', 'l'] rest).map (Json.null, ·)
  | 't' => (word ['r', 'u', 'e'] rest).map (Json.bool true, ·)
  | 'f' => (word ['a', 'l', 's', 'e'] rest).map (Json.bool false, ·)
  | '-' => Number.read true rest
  | '"' => (readString rest).map fun (s, rest) => (.string s, rest)
  | _ => if isDigit b then Number.read false (b :: rest) else lookFault .expectedValue (b :: rest)

mutual

/-- A value, in at most `depth - 1` containers. -/
def value : Nat → Nat → Bytes → Step Json
  | 0, _, bs => lookFault .endOfValue bs
  | fuel + 1, depth, bs =>
    match skipBlanks bs with
    | [] => lookFault .endOfValue []
    | b :: rest =>
      if asChar b = '[' then
        if depth ≤ 1 then lookFault .nesting (b :: rest)
        else
          match items fuel (depth - 1) true rest with
          | .error f => .error f
          | .ok (vs, rest) => .ok (.array vs, rest)
      else if asChar b = '\x7b' then
        if depth ≤ 1 then lookFault .nesting (b :: rest)
        else
          match entries fuel (depth - 1) true rest with
          | .error f => .error f
          | .ok (es, rest) => .ok (.object (SortedMap.ofList es), rest)
      else scalar b rest

/-- The items of a list after its opening bracket, or after one of them. -/
def items : Nat → Nat → Bool → Bytes → Step (List Json)
  | 0, _, _, bs => lookFault .endOfList bs
  | fuel + 1, depth, first, bs =>
    match nextItem first bs with
    | .error f => .error f
    | .ok (.done rest) => .ok ([], rest)
    | .ok (.more bs) =>
      match value fuel depth bs with
      | .error f => .error f
      | .ok (v, rest) =>
        match items fuel depth false rest with
        | .error f => .error f
        | .ok (vs, rest) => .ok (v :: vs, rest)

/-- The entries of an object after its opening brace, or after one of them. -/
def entries : Nat → Nat → Bool → Bytes → Step (List (String × Json))
  | 0, _, _, bs => lookFault .endOfObject bs
  | fuel + 1, depth, first, bs =>
    match nextKey first bs with
    | .error f => .error f
    | .ok (.done rest) => .ok ([], rest)
    | .ok (.more bs) =>
      match readString bs with
      | .error f => .error f
      | .ok (k, rest) =>
        match colon rest with
        | .error f => .error f
        | .ok rest =>
          match value fuel depth rest with
          | .error f => .error f
          | .ok (v, rest) =>
            match entries fuel depth false rest with
            | .error f => .error f
            | .ok (es, rest) => .ok ((k, v) :: es, rest)

end

/-- How many containers may be open at once, and one more. -/
def nestingLimit : Nat := 128

def fuelFor (bs : Bytes) : Nat := 2 * bs.length + 3

/-- The one value of a text. -/
def read (bs : Bytes) : Except Fault Json := do
  let (v, rest) ← value (fuelFor bs) nestingLimit bs
  finish rest
  return v

/-- The value of a text, or what is wrong with it. -/
def ofOctets (bs : Bytes) : Except String Json :=
  (read bs).mapError (·.message bs)

def ofText (s : String) : Except String Json :=
  ofOctets (Utf8.ofString s)

end NamedStores.Json
