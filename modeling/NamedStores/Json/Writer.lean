/-
JSON text without blanks. Object entries are written in the order of their keys. A string
escapes quotes, backslashes and the controls below U+0020, which have short escapes where
JSON knows one; all other characters stand as themselves. A number that is not finite has
no JSON text and is written as null.
-/
import NamedStores.Double.Shortest
import NamedStores.Json.Basic
import NamedStores.Text.Hex

namespace NamedStores.Json

def escape (c : Char) : List Char :=
  let n := c.toNat
  if c = '"' then ['\\', '"']
  else if c = '\\' then ['\\', '\\']
  else if n = 8 then ['\\', 'b']
  else if n = 9 then ['\\', 't']
  else if n = 10 then ['\\', 'n']
  else if n = 12 then ['\\', 'f']
  else if n = 13 then ['\\', 'r']
  else if n < 0x20 then ['\\', 'u', '0', '0', Hex.digit (n / 16), Hex.digit (n % 16)]
  else [c]

def writeString (s : String) : List Char :=
  '"' :: s.toList.flatMap escape ++ ['"']

def writeInteger (n : Int) : List Char :=
  if n < 0 then '-' :: Nat.toDigits 10 n.natAbs else Nat.toDigits 10 n.natAbs

mutual

def write : Json → List Char
  | .null => ['n', 'u', 'l', 'l']
  | .bool true => ['t', 'r', 'u', 'e']
  | .bool false => ['f', 'a', 'l', 's', 'e']
  | .integer n => writeInteger n
  | .float x => if x.isFinite then x.text.toList else ['n', 'u', 'l', 'l']
  | .string s => writeString s
  | .array items => '[' :: writeItems items ++ [']']
  | .object entries => '\x7b' :: writeEntries entries ++ ['\x7d']

/-- The items with commas between them. -/
def writeItems : List Json → List Char
  | [] => []
  | [v] => write v
  | v :: items => write v ++ ',' :: writeItems items

def writeEntries : List (String × Json) → List Char
  | [] => []
  | [(k, v)] => writeString k ++ ':' :: write v
  | (k, v) :: entries => writeString k ++ ':' :: (write v ++ ',' :: writeEntries entries)

end

def text (v : Json) : String :=
  String.ofList (write v)

def octets (v : Json) : Bytes :=
  Utf8.encode (write v)

end NamedStores.Json
