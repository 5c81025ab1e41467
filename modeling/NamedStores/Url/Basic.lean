/-
Addresses of stores as URLs. A URL keeps its parts percent-encoded, as they stand in its
text; an authority with an empty host is written but names no host. A path that does not
start with a slash stands alone after the scheme and has no segments.

A user name and password can be given only to a URL that names a host. They are encoded on
the way in, so reading them back and undoing the encoding gives the texts put in.
-/
import NamedStores.Text.Percent

namespace NamedStores

structure Authority where
  userName : List Char
  password : Option (List Char)
  host : List Char
  port : Option Nat

structure Url where
  scheme : List Char
  authority : Option Authority
  /-- Whether `/.` stands before the path, which keeps `//` from looking like an authority. -/
  guarded : Bool
  path : List Char
  query : Option (List Char)
  fragment : Option (List Char)

namespace Authority

def hasUserInfo (a : Authority) : Bool :=
  !a.userName.isEmpty || a.password.isSome

def userInfoChars (a : Authority) : List Char :=
  if a.hasUserInfo then
    a.userName ++ (match a.password with
      | some p => ':' :: p
      | none => []) ++ ['@']
  else []

def chars (a : Authority) : List Char :=
  a.userInfoChars ++ a.host ++ (match a.port with
    | some n => ':' :: Nat.toDigits 10 n
    | none => [])

end Authority

namespace Url

def chars (u : Url) : List Char :=
  u.scheme ++ ':' :: (match u.authority with
    | some a => '/' :: '/' :: a.chars
    | none => []) ++ (if u.guarded then ['/', '.'] else []) ++ u.path ++ (match u.query with
    | some q => '?' :: q
    | none => []) ++ (match u.fragment with
    | some f => '#' :: f
    | none => [])

def text (u : Url) : String := String.ofList u.chars

/-- Whether the path stands alone after the scheme, without a slash. -/
def isOpaque (u : Url) : Bool :=
  u.authority.isNone && u.path.head? != some '/'

/-- The authority, if its host is not empty. -/
def host? (u : Url) : Option Authority :=
  u.authority.filter fun a => !a.host.isEmpty

/-- Puts another user name in, if the URL names a host. -/
def withUserName? (u : Url) (name : String) : Option Url :=
  u.host?.map fun a =>
    { u with authority := some { a with userName := Percent.encode Percent.isUserInfo name.toList } }

/-- Puts another password in, if the URL names a host. An empty one takes the password away. -/
def withPassword? (u : Url) (password : String) : Option Url :=
  u.host?.map fun a =>
    let p := Percent.encode Percent.isUserInfo password.toList
    { u with authority := some { a with password := if p.isEmpty then none else some p } }

/-- Puts `/` and a number in the place of the path. Where a path stands alone the slash is encoded. -/
def withIndexPath (u : Url) (index : Int) : Url :=
  let digits := (toString index).toList
  { u with path := (if u.isOpaque then ['%', '2', 'F'] else ['/']) ++ digits }

end Url

end NamedStores
