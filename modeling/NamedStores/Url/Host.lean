/-
Hosts of addresses. Every host may be an IPv6 address in square brackets. Else the host of a
store is a name as it stands: controls are encoded in it, and some characters refused. That of a
web resource is a name to look up: it is decoded, put into lower case and, where it goes beyond
ASCII, into ASCII; and if it ends in a number it must be an IPv4 address.

How names beyond ASCII are put into ASCII is told by tables of characters. They are no part of
this library, so it is left open, and whatever is said of addresses holds for every way.
-/
import NamedStores.Text.Case
import NamedStores.Text.Percent
import NamedStores.Url.Ipv4

namespace NamedStores.Url

/-- Why a text is no URL. -/
inductive Flaw where
  | noScheme
  | emptyHost
  | invalidPort
  | invalidIpv4
  | invalidIpv6
  | invalidHost
  | invalidName
  deriving DecidableEq

def Flaw.message : Flaw → String
  | .noScheme => "relative URL without a base"
  | .emptyHost => "empty host"
  | .invalidPort => "invalid port number"
  | .invalidIpv4 => "invalid IPv4 address"
  | .invalidIpv6 => "invalid IPv6 address"
  | .invalidHost => "invalid domain character"
  | .invalidName => "invalid international domain name"

/-! ## Hosts of stores -/

def isForbiddenInHost (c : Char) : Bool :=
  c ∈ [Char.ofNat 0, '\t', '\n', '\r', ' ', '#', '/', ':', '<', '>', '?', '@', '[', '\\', ']', '^',
    '|']

def readHost (cs : List Char) : Except Flaw (List Char) :=
  match cs with
  | '[' :: inner =>
    if cs.getLast? ≠ some ']' then .error .invalidIpv6
    else
      match Ipv6.ofChars? inner.dropLast with
      | some pieces => .ok ('[' :: Ipv6.toChars pieces ++ [']'])
      | none => .error .invalidIpv6
  | _ =>
    if cs.any isForbiddenInHost then .error .invalidHost
    else .ok (Percent.encode Percent.isControl cs)

/-! ## Hosts of web resources -/

/-- A way to put names that go beyond ASCII into ASCII, and to refuse those that are none. -/
class HostNames where
  toAscii? : Bytes → Option (List Char)

def isForbiddenInName (c : Char) : Bool :=
  c.toNat ≤ 0x20 || c.toNat = 0x7F ||
    c ∈ ['%', '#', '/', ':', '<', '>', '?', '@', '[', '\\', ']', '^', '|']

/-- A name in lower case, unless a character in it is refused. -/
def plainName? (name : List Char) : Option (List Char) :=
  let lower := name.map Case.lowerAscii
  if lower.any isForbiddenInName then none else some lower

/-- Names that go beyond ASCII are taken as they stand, if they are texts. -/
instance : HostNames := ⟨fun octets => (Utf8.decode? octets).bind plainName?⟩

/-- Whether a name goes beyond ASCII, or was put into ASCII from one that does: each part of it
that did then begins with `xn--`. -/
def isInternational (octets : Bytes) : Bool :=
  let name := octets.map fun b => Case.lowerAscii (Char.ofNat b.toNat)
  octets.any (0x80 ≤ ·) || (Split.pieces '.' name).any (['x', 'n', '-', '-'].isPrefixOf ·)

variable [HostNames]

/-- The name to look up for the octets of a host. -/
def webName? (octets : Bytes) : Option (List Char) :=
  if isInternational octets then HostNames.toAscii? octets
  else plainName? (octets.map fun b => Char.ofNat b.toNat)

/-- Makes sure that a text is the host of a web resource. -/
def checkWebHost (cs : List Char) : Except Flaw Unit :=
  match cs with
  | '[' :: inner =>
    if cs.getLast? = some ']' ∧ (Ipv6.ofChars? inner.dropLast).isSome then .ok ()
    else .error .invalidIpv6
  | _ =>
    match webName? (Percent.decode cs) with
    | none => .error .invalidName
    | some [] => .error .emptyHost
    | some name =>
      if Ipv4.isMeant name && !Ipv4.isAddress (Ipv4.parts name) then .error .invalidIpv4
      else .ok ()

end NamedStores.Url
