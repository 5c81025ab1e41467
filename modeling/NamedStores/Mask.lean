/-
Masking the password of an address before it is shown. What stands between the last colon
and the first `@` after `://` (or after the start, without one) becomes four stars. A text
without such a place is shown as it is.
-/
import NamedStores.Text.Split

namespace NamedStores.Mask

def schemeEnd : List Char := [':', '/', '/']

def stars : List Char := ['*', '*', '*', '*']

def hideChars (cs : List Char) : List Char :=
  let (head, tail) := (Split.after? schemeEnd cs).getD ([], cs)
  match Split.first? '@' tail with
  | none => cs
  | some (info, host) =>
    match Split.last? ':' info with
    | none => cs
    | some (name, _) => head ++ name ++ ':' :: stars ++ '@' :: host

def hide (s : String) : String :=
  String.ofList (hideChars s.toList)

end NamedStores.Mask
