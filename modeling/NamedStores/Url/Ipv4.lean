/-
IPv4 addresses as text: up to four numbers with points between, of which each but the last is
an octet and the last fills the octets that are left. A number is in hex behind `0x`, in octal
behind another zero, and in decimal else. A name whose last part is a number is meant as an
address.
-/
import NamedStores.Text.Split
import NamedStores.Url.Ipv6

namespace NamedStores.Ipv4

/-- The number that digits of a base write, if all are digits of it. No digits write zero. -/
def digits? (base : Nat) (ds : List Char) : Option Nat :=
  if ds.all fun c => (Hex.value? c).any (· < base) then some (Ipv6.numberOf base ds) else none

def number? : List Char → Option Nat
  | [] => none
  | '0' :: c :: cs => if c = 'x' ∨ c = 'X' then digits? 16 cs else digits? 8 (c :: cs)
  | cs => digits? 10 cs

/-- The parts of a name between points, without an empty one at its end. -/
def parts (name : List Char) : List (List Char) :=
  let ps := Split.pieces '.' name
  if ps.getLast? = some [] then ps.dropLast else ps

/-- Whether a name ends in a number, maybe one that no base writes. -/
def isMeant (name : List Char) : Bool :=
  (parts name).getLast?.any fun last =>
    (number? last).isSome || (!last.isEmpty && last.all Ipv6.isDigit)

/-- Whether parts are the numbers of an address. -/
def isAddress (parts : List (List Char)) : Bool :=
  match parts.mapM number? with
  | some ns => ns.length ≤ 4 && ns.dropLast.all (· < 256) &&
    ns.getLast?.any (· < Nat.pow 256 (5 - ns.length))
  | none => false

end NamedStores.Ipv4
