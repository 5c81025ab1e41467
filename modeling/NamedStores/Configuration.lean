/-
A configuration document: an object of named sections, each an object of named records. A
section that is there but no object counts as present, yet has no records and cannot be used.
-/
import NamedStores.Failure
import NamedStores.Json.Reader

namespace NamedStores

structure Configuration where
  sections : SortedMap String Json

/-- What reading a file gave. -/
inductive FileContent where
  | octets (bs : Bytes)
  | missing
  | directory
  /-- It cannot be read for another reason. -/
  | unreadable (reason : String)

namespace Configuration

def empty : Configuration := ⟨[]⟩

def ofJson : Json → Except Failure Configuration
  | .object sections => .ok ⟨sections⟩
  | _ => .error (.configuration "Configuration document must be a JSON object of sections")

def ofOctets (bs : Bytes) : Except Failure Configuration :=
  match Json.ofOctets bs with
  | .ok v => ofJson v
  | .error message => .error (.configuration s!"Invalid configuration document: {message}")

def ofText (s : String) : Except Failure Configuration :=
  ofOctets (Utf8.ofString s)

/-- A document from a file, which must hold UTF-8. -/
def ofFile (path : String) (content : FileContent) : Except Failure Configuration :=
  let unreadable (reason : String) : Except Failure Configuration :=
    .error (.configuration s!"Cannot read configuration {path}: {reason}")
  match content with
  | .missing => unreadable "No such file or directory (os error 2)"
  | .directory => unreadable "Is a directory (os error 21)"
  | .unreadable reason => unreadable reason
  | .octets bs =>
    match Utf8.decode? bs with
    | some _ => ofOctets bs
    | none => unreadable "stream did not contain valid UTF-8"

def insert (c : Configuration) (name : String) (part : Json) : Configuration :=
  ⟨c.sections.insert name part⟩

def contains (c : Configuration) (name : String) : Bool :=
  c.sections.contains name

/-- The records of a section, if it is an object. -/
def section? (c : Configuration) (name : String) : Option Record :=
  (c.sections.get? name).bind Json.record?

def sectionOf (c : Configuration) (name : String) : Except Failure Record :=
  match c.section? name with
  | some records => .ok records
  | none => .error (.configurationNotFound name)

end Configuration

end NamedStores
