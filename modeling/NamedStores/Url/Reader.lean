/-
Reading an address as a URL. Blanks and controls around it are dropped, and tabs and line
breaks inside it. The first `#` starts the fragment and the first `?` before it the query;
after `//` the authority reaches to the next slash, its user information to the last `@`.
Dot segments are resolved, a drive letter not being left by `..`. Characters that may not
stand in a part are percent-encoded, except in a host, where some are refused.

Web resources go by schemes with rules of their own: each but a file must name a host, and the
slashes before it may lean either way or be left out. No store is reached over such a scheme, so
host and port are only made sure of, and of the URL the scheme is kept.
-/
import NamedStores.Url.Basic
import NamedStores.Url.Host

namespace NamedStores.Url

/-! ## Before the parts -/

/-- Drops controls and spaces at both ends, and tabs and line breaks everywhere. -/
def clean (cs : List Char) : List Char :=
  let outer (c : Char) : Bool := c.toNat ≤ 0x20
  let trimmed := ((cs.dropWhile outer).reverse.dropWhile outer).reverse
  trimmed.filter fun c => c ≠ '\t' && c ≠ '\n' && c ≠ '\r'

def isLetter (c : Char) : Bool := ('a' ≤ c && c ≤ 'z') || ('A' ≤ c && c ≤ 'Z')

def isSchemeChar (c : Char) : Bool :=
  isLetter c || ('0' ≤ c && c ≤ '9') || c ∈ ['+', '-', '.']

/-- The scheme in lower case, and what follows its colon. -/
def splitScheme? (cs : List Char) : Option (List Char × List Char) := do
  let (scheme, rest) ← Split.first? ':' cs
  if scheme.head?.any isLetter && scheme.all isSchemeChar then
    some (scheme.map Case.lowerAscii, rest)
  else none

/-! ## Authority -/

/-- Splits before the first colon that stands outside square brackets. -/
def breakHost : Bool → List Char → List Char × List Char
  | _, [] => ([], [])
  | inside, c :: cs =>
    if c = ':' ∧ !inside then ([], c :: cs)
    else
      let inside := if c = '[' then true else if c = ']' then false else inside
      let (host, rest) := breakHost inside cs
      (c :: host, rest)

/-- The digits of a port. A backslash after them starts the path. -/
def readPort : Option Nat → List Char → Except Flaw (Option Nat × List Char)
  | port, [] => .ok (port, [])
  | port, c :: cs =>
    if Ipv6.isDigit c then
      let n := port.getD 0 * 10 + (c.toNat - 0x30)
      if 65535 < n then .error .invalidPort else readPort (some n) cs
    else if c = '\\' then .ok (port, c :: cs)
    else .error .invalidPort

/-- An authority, and what of its text belongs to the path. -/
def readAuthority (cs : List Char) (isFollowed : Bool) :
    Except Flaw (Authority × List Char) := do
  let (info, hostAndPort) := (Split.last? '@' cs).getD ([], cs)
  if cs.head? = some '@' ∧ hostAndPort = [] ∧ info = [] ∧ isFollowed then
    throw .emptyHost
  let (name, password) := Split.cutOff ':' info
  let (hostChars, afterHost) := breakHost false hostAndPort
  let host ← readHost hostChars
  let (port, rest) ←
    match afterHost with
    | ':' :: digits => if host = [] then .error .emptyHost else readPort none digits
    | rest => .ok (none, rest)
  let authority : Authority :=
    { userName := Percent.encode Percent.isUserInfo name
      password := (password.filter (!·.isEmpty)).map (Percent.encode Percent.isUserInfo)
      host := host
      port := port }
  if host = [] ∧ authority.hasUserInfo then throw .emptyHost
  return (authority, rest)

/-! ## Path -/

/-- A dot, plain or encoded. -/
def isDot (cs : List Char) : Bool :=
  cs = ['.'] || cs.map Case.lowerAscii = ['%', '2', 'e']

def isDots (cs : List Char) : Bool :=
  match cs with
  | '.' :: rest => isDot rest
  | a :: b :: c :: rest => isDot [a, b, c] && isDot rest
  | _ => false

/-- A letter and a colon or bar, alone or before a backslash. -/
def isDrive (cs : List Char) : Bool :=
  match cs with
  | [a, b] => isLetter a && (b = ':' || b = '|')
  | a :: b :: c :: _ => isLetter a && (b = ':' || b = '|') && c = '\\'
  | _ => false

/-- Leaves the last directory, unless it is a drive. -/
def leave (dirs : List (List Char)) : List (List Char) :=
  match dirs with
  | [] => []
  | d :: more => if isDrive d then d :: more else more

/-- Resolves dot segments; directories entered are held last first. -/
def resolve : List (List Char) → List (List Char) → List (List Char)
  | dirs, [] => dirs.reverse
  | dirs, [s] =>
    if isDots s then ([] :: leave dirs).reverse
    else if isDot s then ([] :: dirs).reverse
    else (Percent.encode Percent.isPath s :: dirs).reverse
  | dirs, s :: more =>
    if isDots s then resolve (leave dirs) more
    else if isDot s then resolve dirs more
    else resolve (Percent.encode Percent.isPath s :: dirs) more

/-- A path from its text, to which a first slash is added if it lacks one. -/
def readPath (cs : List Char) : List Char :=
  match cs with
  | [] => []
  | '/' :: rest => (resolve [] (Split.pieces '/' rest)).flatMap ('/' :: ·)
  | _ => (resolve [] (Split.pieces '/' cs)).flatMap ('/' :: ·)

/-! ## Web resources -/

def webSchemes : List (List Char) :=
  ["http", "https", "ws", "wss", "ftp", "file"].map String.toList

/-- A slash that leans either way. -/
def isWebSlash (c : Char) : Bool := c = '/' || c = '\\'

def endsWebAuthority (c : Char) : Bool := isWebSlash c || c = '?' || c = '#'

section

variable [HostNames]

/-- Makes sure that an authority names a host, and a port if it has one. -/
def checkWebAuthority (cs : List Char) : Except Flaw Unit := do
  let (_, hostAndPort) := (Split.last? '@' cs).getD ([], cs)
  let (host, afterHost) := breakHost false hostAndPort
  if host = [] then throw .emptyHost
  checkWebHost host
  match afterHost with
  | ':' :: digits => (readPort none digits).map fun _ => ()
  | _ => return ()

/-- Makes sure of the host of a file, which may be left out or be a drive. -/
def checkFileHost (cs : List Char) : Except Flaw Unit :=
  match cs with
  | a :: b :: rest =>
    let (host, _) := Split.breakAt endsWebAuthority rest
    if !(isWebSlash a && isWebSlash b) || host.isEmpty || isDrive host then .ok ()
    else checkWebHost host
  | _ => .ok ()

/-- Makes sure of what follows the colon of a web resource. -/
def checkWeb (scheme rest : List Char) : Except Flaw Unit :=
  if scheme = "file".toList then checkFileHost rest
  else checkWebAuthority (Split.breakAt endsWebAuthority (rest.dropWhile isWebSlash)).1

def readWeb (scheme rest : List Char) : Except Flaw Url :=
  (checkWeb scheme rest).map fun _ => ⟨scheme, none, false, rest, none, none⟩

/-! ## The whole -/

def ofChars (cs : List Char) : Except Flaw Url := do
  let some (scheme, rest) := splitScheme? (clean cs) | throw .noScheme
  if scheme ∈ webSchemes then return ← readWeb scheme rest
  let (rest, fragment) := Split.cutOff '#' rest
  let (rest, query) := Split.cutOff '?' rest
  let query := query.map (Percent.encode Percent.isQuery)
  let fragment := fragment.map (Percent.encode Percent.isFragment)
  match rest with
  | '/' :: '/' :: rest =>
    let (authorityChars, pathChars) := Split.breakAt (· = '/') rest
    let isFollowed := !pathChars.isEmpty || query.isSome || fragment.isSome
    let (authority, more) ← readAuthority authorityChars isFollowed
    return ⟨scheme, some authority, false, readPath (more ++ pathChars), query, fragment⟩
  | '/' :: _ =>
    let path := readPath rest
    return ⟨scheme, none, path.take 2 = ['/', '/'], path, query, fragment⟩
  | _ => return ⟨scheme, none, false, Percent.encode Percent.isControl rest, query, fragment⟩

def ofText (s : String) : Except Flaw Url := ofChars s.toList

end

end NamedStores.Url
