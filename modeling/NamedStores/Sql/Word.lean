/-
Whole numbers as octets: the least significant octet first, or last. So many octets hold the
number modulo a power of 256, and a negative number as its complement.
-/
import NamedStores.Text.Utf8

namespace NamedStores.Sql.Word

/-- So many octets of a number, the least significant first. -/
def little : Nat → Nat → Bytes
  | 0, _ => []
  | width + 1, n => .ofNat (n % 256) :: little width (n / 256)

def big (width n : Nat) : Bytes := (little width n).reverse

def littleValue : Bytes → Nat
  | [] => 0
  | b :: bs => b.toNat + 256 * littleValue bs

def bigValue (bs : Bytes) : Nat := littleValue bs.reverse

/-- The signed number of 64 bits or less that octets of its width stand for. -/
def signed (width n : Nat) : Int := Int.bmod n (Nat.pow 256 width)

/-- The octets of a signed number, as a number without sign. -/
def complement (width : Nat) (n : Int) : Nat := (n % Int.ofNat (Nat.pow 256 width)).toNat

end NamedStores.Sql.Word
