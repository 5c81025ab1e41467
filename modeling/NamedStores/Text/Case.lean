/-
Lower case, as far as a comparison with ASCII text can tell. Beyond the ASCII letters two
characters have ASCII letters in their lower case: the Kelvin sign is a `k`, and the dotted
capital I an `i` with a combining dot. Every other character lower-cases to characters
outside ASCII.
-/
namespace NamedStores.Case

def lowerAscii (c : Char) : Char :=
  if 'A' ≤ c ∧ c ≤ 'Z' then Char.ofNat (c.toNat + 0x20) else c

def lower (cs : List Char) : List Char :=
  cs.flatMap fun c =>
    if c.toNat = 0x212A then ['k']
    else if c.toNat = 0x130 then ['i', Char.ofNat 0x307]
    else [lowerAscii c]

def lowerAsciiText (s : String) : String :=
  String.ofList (s.toList.map lowerAscii)

end NamedStores.Case
