/-
The commands a handle needs of a key/value client `κ`. Expirations are nanoseconds; none and
zero both mean that the value stays for good.
-/
import NamedStores.Backend
import NamedStores.KeyValue.Settings

namespace NamedStores.KeyValue

structure Driver (ω κ : Type) where
  connect : Settings → ω → Except String κ × ω
  ping : κ → ω → Except String Unit × ω
  get : κ → String → ω → Except String (Option Bytes) × ω
  set : κ → String → Bytes → Option Nat → ω → Except String Unit × ω
  delete : κ → String → ω → Except String Nat × ω
  close : κ → ω → Except String Unit × ω
  now : ω → Nat

namespace Driver

variable {ω κ : Type}

/-- A connection error, with the address as it may be shown. -/
def refusal (s : Settings) (message : String) : Refusal :=
  let shown := Mask.hide s.address
  ⟨message,
    s!"Check that the Redis server at {shown} is running and the credentials are valid", shown⟩

def backend [Url.HostNames] (d : Driver ω κ) : Backend ω Settings κ where
  kind := .redis
  readSettings := Settings.usable
  connect s w :=
    let (result, w) := d.connect s w
    (result.mapError (refusal s), w)
  ping s client w :=
    let (result, w) := d.ping client w
    (result.mapError (refusal s), w)
  greet client w := (client, w)
  close := d.close
  now := d.now

end Driver

end NamedStores.KeyValue
