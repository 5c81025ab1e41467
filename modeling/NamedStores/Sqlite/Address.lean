/-
Addresses of SQLite databases: after the scheme a file, or `:memory:`, and behind a question
mark the parameters of opening it. Parameters are few and each takes few values; anything else
is an error.
-/
import NamedStores.Sql.DriverError
import NamedStores.Text.Quoted
import NamedStores.Url.Form

namespace NamedStores.Sqlite

/-- A path without its needless parts. -/
structure Path where
  isAbsolute : Bool
  parts : List String
  deriving DecidableEq

namespace Path

def ofText (s : String) : Path :=
  let parts := (Split.pieces '/' s.toList).filter fun p => p ≠ [] && p ≠ ['.']
  ⟨s.toList.head? = some '/', parts.map String.ofList⟩

/-- The directory that a path lies in. -/
def parent (p : Path) : Path := ⟨p.isAbsolute, p.parts.dropLast⟩

end Path

structure Address where
  /-- The file as it is named; a database in memory without a name has none. -/
  file : Option String
  isReadOnly : Bool
  mayCreate : Bool
  isInMemory : Bool
  isShared : Bool
  isImmutable : Bool
  system : Option String

namespace Address

/-- A text without all the copies of a word that it begins with, `fuel` of them at most. -/
def trimStart (word : List Char) : Nat → List Char → List Char
  | 0, cs => cs
  | fuel + 1, cs => if word.isPrefixOf cs then trimStart word fuel (cs.drop word.length) else cs

/-- Replaces the setting that a parameter is about. -/
def withParameter (a : Address) (pair : String × String) : Except Sql.DriverError Address :=
  let (key, value) := pair
  let unknownValue : Except Sql.DriverError Address :=
    let quoted := Quoted.quote value
    .error (.configuration s!"unknown value {quoted} for `{key}`")
  match key, value with
  | "mode", "ro" => .ok { a with isReadOnly := true }
  | "mode", "rw" => .ok a
  | "mode", "rwc" => .ok { a with mayCreate := true }
  | "mode", "memory" => .ok { a with isInMemory := true, isShared := true }
  | "mode", _ => unknownValue
  | "cache", "private" => .ok { a with isShared := false }
  | "cache", "shared" => .ok { a with isShared := true }
  | "cache", _ => unknownValue
  | "immutable", "true" => .ok { a with isImmutable := true }
  | "immutable", "1" => .ok { a with isImmutable := true }
  | "immutable", "false" => .ok { a with isImmutable := false }
  | "immutable", "0" => .ok { a with isImmutable := false }
  | "immutable", _ => unknownValue
  | "vfs", _ => .ok { a with system := some value }
  | _, _ =>
    .error (.configuration s!"unknown query parameter `{key}` while parsing connection URL")

def ofText (address : String) : Except Sql.DriverError Address :=
  let cs := address.toList
  let cs := trimStart "sqlite:".toList cs.length (trimStart "sqlite://".toList cs.length cs)
  let (file, query) := Split.cutOff '?' cs
  let isNameless : Bool := file = ":memory:".toList
  let file := if isNameless then none else some (Utf8.toStringLossy (Percent.decode file))
  ((query.map Form.ofQuery).getD []).foldlM withParameter
    ⟨file, false, false, isNameless, isNameless, false, none⟩

end Address

end NamedStores.Sqlite
