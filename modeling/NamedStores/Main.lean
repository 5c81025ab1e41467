/-
The program: reads its command line and the document that it names, brings up the stores,
shows their handles, and waits for the end of its input before it takes them down. What is
decided is decided in `Startup`; here it is read and printed.
-/
import NamedStores.Json.Pretty
import NamedStores.KeyValue.Resp
import NamedStores.Sqlite.Driver
import NamedStores.Startup

namespace NamedStores.Program

/-- The variables that options fall back to, as far as they are set. -/
def environment : IO CommandLine.Environment := do
  let values ← CommandLine.variableNames.mapM fun name => return (name, ← IO.getEnv name)
  return values.filterMap fun (name, value) => value.map (name, ·)

def content (path : String) : IO FileContent := do
  try
    return .octets (← IO.FS.readBinFile path).data.toList
  catch
    | .noFileOrDirectory _ _ _ => return .missing
    | .inappropriateType _ _ _ => return .directory
    | e => return .unreadable (toString e)

def report (o : Options) (events : List Event) : IO Unit :=
  (Startup.logged o events).forM fun e => IO.println e.json.text

def showSummaries (summaries : List Handle.Summary) : IO Unit :=
  let time (t : Nat) : Json := .integer t
  IO.println (Json.prettyText (.array (summaries.map (Handle.Summary.json time))))

/-- Reads lines until there are none. -/
partial def waitForEnd (input : IO.FS.Stream) : IO Unit := do
  if (← input.getLine).isEmpty then return () else waitForEnd input

/-- Brings up the stores of a document, and takes them down when the program is done. -/
def serve (o : Options) (c : Configuration) : IO Outcome := do
  let databases := Sqlite.driver.backend
  let redis := (KeyValue.Resp.driver ⟨[], []⟩).backend
  let launch := Launch.ofConfiguration databases redis o c
    (Sqlite.World.fresh ["", "/", "/tmp"]) KeyValue.Server.fresh
  report o launch.events
  if launch.fatal.isNone then
    showSummaries (launch.summaries databases redis)
    if !o.check then waitForEnd (← IO.getStdin)
  let (outcome, _) := launch.finish databases redis
  report o (outcome.events.drop launch.events.length)
  return outcome

def run (o : Options) : IO UInt32 := do
  match Configuration.ofFile o.config (← content o.config) with
  | .error f =>
    IO.eprint (Startup.errorLine f)
    return 1
  | .ok c =>
    let outcome ← serve o c
    (outcome.failure.map Startup.errorLine).forM IO.eprint
    return .ofNat outcome.exitCode

end NamedStores.Program

def main (args : List String) : IO UInt32 := do
  match NamedStores.CommandLine.parse args (← NamedStores.Program.environment) with
  | .ok o => NamedStores.Program.run o
  | .error e =>
    if e = .version then IO.print NamedStores.CommandLine.versionLine
    return .ofNat e.exitCode
