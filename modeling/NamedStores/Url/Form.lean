/-
Names and values in the query of a URL, as forms send them: pairs with `&` between and `=`
inside. Letters, digits and `*-._` stay, a space is `+`, and every other character is
percent-encoded. Reading puts U+FFFD where octets are not UTF-8.
-/
import NamedStores.Url.Reader

namespace NamedStores.Form

def stays (c : Char) : Bool :=
  Url.isLetter c || Ipv6.isDigit c || c ∈ ['*', '-', '.', '_']

def encode (s : String) : List Char :=
  s.toList.flatMap fun c =>
    if c = ' ' then ['+'] else if stays c then [c] else (Utf8.octets c).flatMap Percent.octet

def decode (cs : List Char) : String :=
  Utf8.toStringLossy (Percent.decode (cs.map fun c => if c = '+' then ' ' else c))

/-- The parts between `&`, without the empty ones. -/
def parts (cs : List Char) : List (List Char) :=
  (Split.pieces '&' cs).filter (!·.isEmpty)

def ofQuery (cs : List Char) : List (String × String) :=
  (parts cs).map fun part =>
    let (name, value) := Split.cutOff '=' part
    (decode name, decode (value.getD []))

def toQuery (pairs : List (String × String)) : List Char :=
  ['&'].intercalate (pairs.map fun (name, value) => encode name ++ '=' :: encode value)

end NamedStores.Form

namespace NamedStores.Url

def queryPairs (u : Url) : List (String × String) :=
  Form.ofQuery (u.query.getD [])

def withQueryPairs (u : Url) (pairs : List (String × String)) : Url :=
  { u with query := some (Form.toQuery pairs) }

end NamedStores.Url
