/-
Why a JSON text cannot be read, and where. A fault keeps the octets not yet consumed when it
was found, and whether the octet in front of them was looked at; its position counts the
newlines before that place and the octets since the last one.
-/
import NamedStores.Text.Quoted
import NamedStores.Double.Shortest

namespace NamedStores.Json

/-- What stands in the text where something else was wanted. -/
inductive Found where
  | null
  | bool (b : Bool)
  | integer (n : Int)
  | float (x : Double)
  | string (s : String)
  | sequence
  | map

def Found.text : Found → String
  | .null => "null"
  | .bool b => s!"boolean `{b}`"
  | .integer n => s!"integer `{n}`"
  | .float x => s!"floating point `{x.text}`"
  | .string s => s!"string {Quoted.quote s}"
  | .sequence => "sequence"
  | .map => "map"

inductive Cause where
  | endOfValue
  | endOfList
  | endOfObject
  | endOfString
  | expectedValue
  | expectedWord
  | expectedColon
  | expectedListEnd
  | expectedObjectEnd
  | keyNotString
  | trailingComma
  | trailingCharacters
  | nesting
  | invalidNumber
  | numberOutOfRange
  | invalidEscape
  | controlCharacter
  | loneSurrogate
  | halfSurrogate
  | invalidUnicode
  | wrongType (found : Found) (wanted : String)
  | wrongValue (n : Int) (wanted : String)
  | wrongLength (n : Nat) (wanted : String)
  | missingField (name : String)
  | duplicateField (name : String)
  | unknownVariant (name : String) (known : List String)
  | noAlternative (wanted : String)

def Cause.message : Cause → String
  | .endOfValue => "EOF while parsing a value"
  | .endOfList => "EOF while parsing a list"
  | .endOfObject => "EOF while parsing an object"
  | .endOfString => "EOF while parsing a string"
  | .expectedValue => "expected value"
  | .expectedWord => "expected ident"
  | .expectedColon => "expected `:`"
  | .expectedListEnd => "expected `,` or `]`"
  | .expectedObjectEnd => "expected `,` or `\x7d`"
  | .keyNotString => "key must be a string"
  | .trailingComma => "trailing comma"
  | .trailingCharacters => "trailing characters"
  | .nesting => "recursion limit exceeded"
  | .invalidNumber => "invalid number"
  | .numberOutOfRange => "number out of range"
  | .invalidEscape => "invalid escape"
  | .controlCharacter => "control character (\\u0000-\\u001F) found while parsing a string"
  | .loneSurrogate => "lone leading surrogate in hex escape"
  | .halfSurrogate => "unexpected end of hex escape"
  | .invalidUnicode => "invalid unicode code point"
  | .wrongType found wanted => s!"invalid type: {found.text}, expected {wanted}"
  | .wrongValue n wanted => s!"invalid value: integer `{n}`, expected {wanted}"
  | .wrongLength n wanted => s!"invalid length {n}, expected {wanted}"
  | .missingField name => s!"missing field `{name}`"
  | .duplicateField name => s!"duplicate field `{name}`"
  | .unknownVariant name known =>
    let quoted := ", ".intercalate (known.map fun k => s!"`{k}`")
    s!"unknown variant `{name}`, expected one of {quoted}"
  | .noAlternative wanted => s!"data did not match any variant of untagged enum {wanted}"

/-- A cause, the octets left when it was found, and whether the first of them was looked at. -/
structure Fault where
  cause : Cause
  rest : Bytes
  peeked : Bool

namespace Fault

/-- Line and column of the end of a text. -/
def position (seen : Bytes) : Nat × Nat :=
  seen.foldl
    (fun (place : Nat × Nat) (b : UInt8) => if b = 10 then (place.1 + 1, 0) else (place.1, place.2 + 1))
    (1, 0)

def message (whole : Bytes) (f : Fault) : String :=
  let consumed := whole.length - f.rest.length + (if f.peeked then 1 else 0)
  let (line, column) := position (whole.take consumed)
  s!"{f.cause.message} at line {line} column {column}"

end Fault

end NamedStores.Json
