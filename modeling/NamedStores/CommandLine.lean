/-
The command line of the program that brings up all stores of a document. Arguments are read in
order. An option waits for its value until the next option or the end, so of several mistakes
the first one met is reported. Options not given fall back to the environment and then to
their defaults; a flag's variable must be `true` or `false` also when the flag is given.
-/
import NamedStores.SortedMap
import NamedStores.Text.Split

namespace NamedStores

structure Options where
  config : String
  databaseSection : String
  redisSection : String
  connectAll : Bool
  check : Bool
  logLevel : String
  jsonLogs : Bool
  deriving DecidableEq

namespace CommandLine

/-- Why the program ends before it starts: help or version was asked for, or a mistake. -/
inductive Ending where
  | help
  | version
  | unknownArgument
  | invalidValue
  | argumentConflict
  | tooManyValues
  | missingRequired
  deriving DecidableEq

/-- The line that tells the program's version. -/
def versionLine : String := "datastore-manager 0.1.0\n"

def Ending.exitCode : Ending → Nat
  | .help => 0
  | .version => 0
  | _ => 2

/-- Options that take a value. -/
inductive Valued where
  | config
  | databaseSection
  | redisSection
  | logLevel
  deriving DecidableEq

inductive Flag where
  | connectAll
  | check
  | jsonLogs
  deriving DecidableEq

/-- What a name on the command line stands for. -/
inductive Named where
  | valued (o : Valued)
  | flag (f : Flag)
  | ending (e : Ending)

def longName? (name : String) : Option Named :=
  match name with
  | "config" => some (.valued .config)
  | "database-section" => some (.valued .databaseSection)
  | "redis-section" => some (.valued .redisSection)
  | "log-level" => some (.valued .logLevel)
  | "connect-all" => some (.flag .connectAll)
  | "check" => some (.flag .check)
  | "json-logs" => some (.flag .jsonLogs)
  | "help" => some (.ending .help)
  | "version" => some (.ending .version)
  | _ => none

def shortName? (c : Char) : Option Named :=
  match c with
  | 'c' => some (.valued .config)
  | 'h' => some (.ending .help)
  | 'V' => some (.ending .version)
  | _ => none

/-! ## Arguments -/

/-- What the arguments so far gave, and the option that may still wait for its value. -/
structure Gathered where
  pending : Option (Valued × Option String)
  values : List (Valued × String)
  flags : List Flag

namespace Gathered

def start : Gathered := ⟨none, [], []⟩

def value? (g : Gathered) (o : Valued) : Option String :=
  (g.values.find? (·.1 = o)).map (·.2)

/-- Takes up the option that waits, with its value. -/
def settle (g : Gathered) : Except Ending Gathered :=
  match g.pending with
  | none => .ok g
  | some (_, none) => .error .invalidValue
  | some (o, some v) =>
    if (g.value? o).isSome then .error .argumentConflict
    else if o = .config ∧ v = "" then .error .invalidValue
    else .ok { g with pending := none, values := g.values ++ [(o, v)] }

/-- An option, with its value if that is attached to it. -/
def valued (g : Gathered) (o : Valued) (attached : Option String) : Except Ending Gathered := do
  let g ← g.settle
  let g := { g with pending := some (o, attached) }
  if attached.isSome then g.settle else return g

def flag (g : Gathered) (f : Flag) : Except Ending Gathered := do
  let g ← g.settle
  if f ∈ g.flags then throw .argumentConflict
  return { g with flags := g.flags ++ [f] }

def ending (g : Gathered) (e : Ending) : Except Ending Gathered := do
  let _ ← g.settle
  throw e

/-- A word after two dashes. -/
def long (g : Gathered) (word : List Char) : Except Ending Gathered :=
  let (name, attached) := Split.cutOff '=' word
  match longName? (String.ofList name) with
  | none => .error .unknownArgument
  | some (.valued o) => g.valued o (attached.map String.ofList)
  | some (.flag f) => if attached.isSome then .error .tooManyValues else g.flag f
  | some (.ending e) => if attached.isSome then .error .tooManyValues else g.ending e

/-- A word after one dash: an option, perhaps with its value behind it. -/
def short (g : Gathered) (c : Char) (rest : List Char) : Except Ending Gathered :=
  match shortName? c with
  | some (.valued o) =>
    match rest with
    | [] => g.valued o none
    | '=' :: v => g.valued o (some (String.ofList v))
    | v => g.valued o (some (String.ofList v))
  | some (.flag f) => g.flag f
  | some (.ending e) => g.ending e
  | none => .error .unknownArgument

/-- A word without dashes: the value of the option that waits for one. -/
def plain (g : Gathered) (word : String) : Except Ending Gathered :=
  match g.pending with
  | some (o, none) => .ok { g with pending := some (o, some word) }
  | _ => .error .unknownArgument

def argument (g : Gathered) (word : String) : Except Ending Gathered :=
  match word.toList with
  | '-' :: '-' :: name => g.long name
  | '-' :: c :: rest => g.short c rest
  | _ => g.plain word

end Gathered

/-- Reads the arguments. After two dashes alone no more may come. -/
def gather : Gathered → List String → Except Ending Gathered
  | g, [] => g.settle
  | g, word :: words =>
    if word = "--" then if words.isEmpty then g.settle else .error .unknownArgument
    else
      match g.argument word with
      | .error e => .error e
      | .ok g => gather g words

/-! ## Environment -/

abbrev Environment := List (String × String)

def fromEnvironment? (env : Environment) (name : String) : Option String :=
  (env.find? (·.1 = name)).map (·.2)

def Valued.variableName : Valued → String
  | .config => "DATASTORE_CONFIG"
  | .databaseSection => "DATASTORE_DATABASE_SECTION"
  | .redisSection => "DATASTORE_REDIS_SECTION"
  | .logLevel => "DATASTORE_LOG_LEVEL"

def Flag.variableName? : Flag → Option String
  | .connectAll => some "DATASTORE_CONNECT_ALL"
  | .jsonLogs => some "DATASTORE_JSON_LOGS"
  | .check => none

/-- The variables that are looked at. -/
def variableNames : List String :=
  [Valued.config, .databaseSection, .redisSection, .logLevel].map (·.variableName) ++
    [Flag.connectAll, .check, .jsonLogs].filterMap (·.variableName?)

/-- An option's value from the arguments, else from the environment. -/
def valueOf (g : Gathered) (env : Environment) (o : Valued) : Except Ending (Option String) :=
  match g.value? o with
  | some v => .ok (some v)
  | none =>
    match fromEnvironment? env o.variableName with
    | some v => if o = .config ∧ v = "" then .error .invalidValue else .ok (some v)
    | none => .ok none

/-- A flag from the arguments or its variable, if it has one. -/
def flagOf (g : Gathered) (env : Environment) (f : Flag) : Except Ending Bool :=
  let given : Bool := f ∈ g.flags
  match f.variableName?.bind (fromEnvironment? env) with
  | none => .ok given
  | some v =>
    if v = "true" then .ok true
    else if v = "false" then .ok given
    else .error .invalidValue

def parse (args : List String) (env : Environment) : Except Ending Options := do
  let g ← gather Gathered.start args
  let config ← valueOf g env .config
  let databaseSection ← valueOf g env .databaseSection
  let redisSection ← valueOf g env .redisSection
  let connectAll ← flagOf g env .connectAll
  let check ← flagOf g env .check
  let logLevel ← valueOf g env .logLevel
  let jsonLogs ← flagOf g env .jsonLogs
  match config with
  | none => throw .missingRequired
  | some config =>
    return {
      config := config
      databaseSection := databaseSection.getD "databases"
      redisSection := redisSection.getD "redis"
      connectAll := connectAll
      check := check
      logLevel := logLevel.getD "info"
      jsonLogs := jsonLogs }

end CommandLine

end NamedStores
