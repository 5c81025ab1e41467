/-
What a handle needs of the stores behind it. Settings `σ` are read from a record; a client `κ`
is opened for them in a world `ω` that every call may change, then pinged, greeted once, and
closed in the end.
-/
import NamedStores.Trouble

namespace NamedStores

structure Backend (ω σ κ : Type) where
  kind : Kind
  readSettings : Record → Except Defect σ
  connect : σ → ω → Except Refusal κ × ω
  ping : σ → κ → ω → Except Refusal Unit × ω
  /-- What is learnt of the store once it answers; the client keeps it. -/
  greet : κ → ω → κ × ω
  close : κ → ω → Except String Unit × ω
  now : ω → Nat

end NamedStores
