/-
White space as Unicode has it: the controls from tab to carriage return, the space, and
the characters of the classes Zs, Zl and Zp with the next-line control.
-/
namespace NamedStores.Blank

def isBlank (c : Char) : Bool :=
  let n := c.toNat
  (9 ≤ n && n ≤ 13) || n == 0x20 || n == 0x85 || n == 0xA0 || n == 0x1680 ||
    (0x2000 ≤ n && n ≤ 0x200A) || n == 0x2028 || n == 0x2029 || n == 0x202F ||
    n == 0x205F || n == 0x3000

/-- The first word of a text: what stands after leading blanks and before the next one. -/
def firstWord (cs : List Char) : List Char :=
  (cs.dropWhile isBlank).takeWhile (!isBlank ·)

end NamedStores.Blank
