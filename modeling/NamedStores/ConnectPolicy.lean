/-
Whether a handle connects during startup, and whether it must connect. Both flags are read
from a record; one that is absent or no boolean is off.
-/
import NamedStores.Json.Basic

namespace NamedStores

structure ConnectPolicy where
  atStart : Bool
  must : Bool
  deriving DecidableEq, Inhabited

namespace ConnectPolicy

def ofRecord (record : Record) : ConnectPolicy :=
  let flag (name : String) : Bool := ((record.get? name).bind Json.bool?).getD false
  ⟨flag "is_connect_at_start", flag "must_connected"⟩

def json (p : ConnectPolicy) : Json :=
  Json.fields [("connect_at_start", .bool p.atStart), ("must_connect", .bool p.must)]

end ConnectPolicy

end NamedStores
