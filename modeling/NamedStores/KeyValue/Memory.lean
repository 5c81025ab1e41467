/-
A client that reaches the store in memory. It keeps times to live to the nanosecond, counts
the clients opened and closed, and remembers the last address asked for.
-/
import NamedStores.KeyValue.Driver
import NamedStores.KeyValue.Server

namespace NamedStores.KeyValue.Memory

/-- Runs a command unless the server refuses it. -/
def unlessRefused {α : Type} (command : String) (run : Server → α × Server) (s : Server) :
    Except String α × Server :=
  match s.refused.get? command with
  | some message => (.error s!"fake redis: {message}", s)
  | none =>
    let (a, s) := run s
    (.ok a, s)

def connect [Url.HostNames] (settings : Settings) (s : Server) : Except String Client × Server :=
  match settings.connectionUrl with
  | .error message => (.error s!"fake redis: {message}", s)
  | .ok url =>
    unlessRefused "connect" (fun s => (⟨settings.database⟩, { s with connects := s.connects + 1 }))
      { s with lastUrl := some url.text }

def driver [Url.HostNames] : Driver Server Client where
  connect := connect
  ping _ := unlessRefused "ping" fun s => ((), s)
  get client key := unlessRefused "get" fun s => (s.store.value? client.database key, s)
  set client key value expiration := unlessRefused "set" fun s =>
    let ttl := expiration.filter (· ≠ 0)
    ((), { s with store := s.store.put client.database key ⟨value, ttl⟩ })
  delete client key := unlessRefused "delete" fun s =>
    ((s.store.find? client.database key).toList.length,
      { s with store := s.store.erase client.database key })
  close _ := unlessRefused "close" fun s => ((), { s with closes := s.closes + 1 })
  now _ := 0

end NamedStores.KeyValue.Memory
