/-
The states of a handle: without settings, with settings, and with a client too.
-/
namespace NamedStores

inductive Status where
  | unconfigured
  | configured
  | connected
  deriving DecidableEq

namespace Status

def label : Status → String
  | .unconfigured => "unconfigured"
  | .configured => "configured"
  | .connected => "connected"

def all : List Status := [.unconfigured, .configured, .connected]

def isConfigured (s : Status) : Bool := s ≠ .unconfigured

def isConnected (s : Status) : Bool := s = .connected

end Status

end NamedStores
