/-
A key/value server: its store, the commands it is told to refuse and with which message, and
the commands it was sent over its socket. The counts and the address are those of clients
that reach the store without a socket.
-/
import NamedStores.KeyValue.Store

namespace NamedStores.KeyValue

structure Server where
  store : Store
  refused : SortedMap String String
  commands : List (List Bytes)
  connects : Nat
  closes : Nat
  lastUrl : Option String

namespace Server

def fresh : Server := ⟨[], [], [], 0, 0, none⟩

/-- From now on the server refuses a command with a message, or no longer. -/
def refuse (s : Server) (command : String) (message : Option String) : Server :=
  match message with
  | some m => { s with refused := s.refused.insert command m }
  | none => { s with refused := s.refused.erase command }

def putRaw (s : Server) (index : Int) (key : String) (value : Bytes) : Server :=
  { s with store := s.store.putRaw index key value }

end Server

/-- A client of one database of a server. -/
structure Client where
  database : Int

end NamedStores.KeyValue
