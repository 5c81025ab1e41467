/-
Bringing up all stores that a document names, and taking them down again. Databases come
first, then Redis. A failure that is not fatal is reported, and startup goes on with what there
is; a fatal one ends it: what was connected is disconnected again and no summary is shown. A
startup that is not ended shows the summaries of all handles, databases first, and disconnects
them when the program is done.
-/
import NamedStores.CommandLine
import NamedStores.Registry
import NamedStores.Text.Case

namespace NamedStores

/-- All stores of one kind, and the world they are in. -/
structure Stores (ω σ κ : Type) where
  registry : Registry σ κ
  world : ω

namespace Stores

variable {ω σ κ : Type}

/-- Loads a section and connects its handles: all of them, or those that connect at start. A
section that is absent is skipped. -/
def start (b : Backend ω σ κ) (part : String) (connectAll : Bool) (s : Stores ω σ κ) :
    Except Stop Unit × Stores ω σ κ :=
  if s.registry.configuration.contains part then
    match s.registry.load b part with
    | (.error e, r) => (.error e, { s with registry := r })
    | (.ok _, r) =>
      let (result, r, w) :=
        if connectAll then r.connectAll b part s.world else r.connectAllAtStart b part s.world
      (result, ⟨r, w⟩)
  else (.ok (), s)

def disconnect (b : Backend ω σ κ) (s : Stores ω σ κ) : Except Stop Unit × Stores ω σ κ :=
  let (result, r, w) := s.registry.disconnectAll b s.world
  (result, ⟨r, w⟩)

end Stores

namespace Startup

def source : String := "datastore_manager"

/-- An event of the program itself about a failure. -/
def report (level : Level) (message : String) (f : Failure) (fields : List (String × Json)) :
    Event :=
  ⟨level, source, message, ("error", .string f.message) :: fields⟩

/-- Keeps a fatal failure, and reports any other. -/
def tolerate (kind : Kind) (result : Except Stop Unit) : Option Failure × List Event :=
  match result with
  | .ok _ => (none, [])
  | .error stop =>
    let f := stop.failure
    if f.isFatal then (some f, stop.events kind)
    else
      (none, stop.events kind ++
        [report .warn "Datastore startup incomplete" f [("kind", .string kind.label)]])

end Startup

/-- Stores that were brought up as far as they could be, what was reported on the way, and the
fatal failure that ended it, if there was one. -/
structure Launch (ω σ κ ω' σ' κ' : Type) where
  databases : Stores ω σ κ
  redis : Stores ω' σ' κ'
  events : List Event
  fatal : Option Failure

/-- How the program ends. -/
structure Outcome where
  exitCode : Nat
  /-- What is shown after a startup that was not ended. -/
  summaries : Option (List Handle.Summary)
  events : List Event
  /-- The failure that the program itself ends with, if it does. -/
  failure : Option Failure

namespace Launch

variable {ω σ κ ω' σ' κ' : Type}

/-- Brings up the databases, and then Redis unless a fatal failure came first. -/
def ofConfiguration (b : Backend ω σ κ) (b' : Backend ω' σ' κ') (o : Options)
    (c : Configuration) (w : ω) (w' : ω') : Launch ω σ κ ω' σ' κ' :=
  let databases : Stores ω σ κ := ⟨Registry.empty c "databases", w⟩
  let redis : Stores ω' σ' κ' := ⟨Registry.empty c "redis", w'⟩
  let (result, databases) := databases.start b o.databaseSection o.connectAll
  match Startup.tolerate b.kind result with
  | (some f, events) => ⟨databases, redis, events, some f⟩
  | (none, events) =>
    let (result, redis) := redis.start b' o.redisSection o.connectAll
    let (fatal, more) := Startup.tolerate b'.kind result
    ⟨databases, redis, events ++ more, fatal⟩

def summaries (b : Backend ω σ κ) (b' : Backend ω' σ' κ') (l : Launch ω σ κ ω' σ' κ') :
    List Handle.Summary :=
  l.databases.registry.summaries b.kind ++ l.redis.registry.summaries b'.kind

/-- Disconnects the databases, and then Redis unless a client did not close. -/
def shutDown (b : Backend ω σ κ) (b' : Backend ω' σ' κ') (l : Launch ω σ κ ω' σ' κ') :
    Option Failure × Launch ω σ κ ω' σ' κ' :=
  match l.databases.disconnect b with
  | (.error stop, databases) =>
    (some stop.failure,
      { l with databases := databases, events := l.events ++ stop.events b.kind })
  | (.ok _, databases) =>
    match l.redis.disconnect b' with
    | (.error stop, redis) =>
      (some stop.failure,
        { l with databases := databases, redis := redis,
                 events := l.events ++ stop.events b'.kind })
    | (.ok _, redis) => (none, { l with databases := databases, redis := redis })

/-- Takes everything down, and says how the program ends. -/
def finish (b : Backend ω σ κ) (b' : Backend ω' σ' κ') (l : Launch ω σ κ ω' σ' κ') :
    Outcome × Launch ω σ κ ω' σ' κ' :=
  let shown := l.summaries b b'
  let (unclosed, done) := l.shutDown b b'
  match l.fatal, unclosed with
  | some f, _ =>
    let incomplete := unclosed.map fun u =>
      Startup.report .warn "Shutdown after fatal error incomplete" u []
    let last := Startup.report .error "Fatal datastore error, exiting" f
      [("suggestion", .string (f.suggestion?.getD "-"))]
    (⟨1, none, done.events ++ incomplete.toList ++ [last], none⟩, done)
  | none, some u =>
    let last := Startup.report .error "Shutdown incomplete" u []
    (⟨1, some shown, done.events ++ [last], some u⟩, done)
  | none, none => (⟨0, some shown, done.events, none⟩, done)

end Launch

namespace Startup

variable {ω σ κ ω' σ' κ' : Type}

/-- Runs the program on a document that was read, or on the reason why it was not. -/
def run (b : Backend ω σ κ) (b' : Backend ω' σ' κ') (o : Options)
    (document : Except Failure Configuration) (w : ω) (w' : ω') :
    Outcome × Option (Launch ω σ κ ω' σ' κ') :=
  match document with
  | .error f => (⟨1, none, [], some f⟩, none)
  | .ok c =>
    let (outcome, done) := (Launch.ofConfiguration b b' o c w w').finish b b'
    (outcome, some done)

/-- The line with which the program ends on a failure of its own. -/
def errorLine (f : Failure) : String :=
  let parts : String × List (String × String) := match f with
    | .configuration message => ("Config", [("message", message)])
    | .operation handle key message =>
      ("Operation", [("handle", handle), ("key", key), ("message", message)])
    | f => ("Failure", [("message", f.message)])
  let fields := ", ".intercalate (parts.2.map fun (name, value) =>
    name ++ ": " ++ Quoted.quote value)
  let title := parts.1
  s!"Error: {title} \x7b {fields} \x7d\n"

/-- Whether an event is written at a log level, by its name or its number. -/
def isLogged (level : String) (e : Event) : Bool :=
  let level := Case.lowerAsciiText level
  match e.level with
  | .error => ["", "1", "error", "2", "warn", "3", "info", "4", "debug", "5", "trace"].contains level
  | .warn => ["2", "warn", "3", "info", "4", "debug", "5", "trace"].contains level

/-- The events that are written as JSON. -/
def logged (o : Options) (events : List Event) : List Event :=
  if o.jsonLogs then events.filter (isLogged o.logLevel) else []

end Startup

end NamedStores
