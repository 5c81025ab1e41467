/-
Quoted text: a text between double quotes in which quotes, backslashes and every
character that is not shown as itself are written with a backslash.
-/
import NamedStores.Text.Hex
import NamedStores.Text.Printable

namespace NamedStores.Quoted

def escape (c : Char) : List Char :=
  if c = '"' then ['\\', '"']
  else if c = '\\' then ['\\', '\\']
  else if c = '\n' then ['\\', 'n']
  else if c = '\r' then ['\\', 'r']
  else if c = '\t' then ['\\', 't']
  else if c.toNat = 0 then ['\\', '0']
  else if Printable.isHidden c then
    ['\\', 'u', '\x7b'] ++ Hex.numeral c.toNat ++ ['\x7d']
  else [c]

def quote (s : String) : String :=
  String.ofList ('"' :: s.toList.flatMap escape ++ ['"'])

end NamedStores.Quoted
