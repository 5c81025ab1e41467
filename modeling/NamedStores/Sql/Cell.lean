/-
Cells as a server sends them: as text after a plain statement, in binary after a prepared one.
A cell that cannot be read as its column's type says becomes null, as does a number that JSON
cannot hold.
-/
import NamedStores.Double.Reader
import NamedStores.Json.Reader
import NamedStores.Sql.Word
import NamedStores.Text.Base64

namespace NamedStores.Sql

inductive Format where
  | text
  | binary
  deriving DecidableEq

namespace Cell

/-- A cell's text. -/
def text (bs : Bytes) : Json := Json.ofText? (Utf8.toString? bs)

/-- What a reader makes of a cell's text. -/
def ofChars (read : List Char → Option Json) (bs : Bytes) : Json :=
  Json.ofOption ((Utf8.decode? bs).bind read)

/-- A number as text, correctly rounded by `round`. -/
def float (round : Bool → Nat → Int → Double) : Bytes → Json :=
  ofChars fun cs => (Double.ofChars? round cs).map Json.ofDouble

/-- Octets, as Base64. -/
def octets (bs : Bytes) : Json := .string (Base64.text bs)

/-- A JSON document. -/
def document (bs : Bytes) : Json :=
  match Json.ofOctets bs with
  | .ok v => v
  | .error _ => .null

end Cell

end NamedStores.Sql
