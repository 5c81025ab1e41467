/-
The Redis protocol between a client and a server. The server logs every command, refuses those
it is told to refuse with an error line, and keeps times to live in whole milliseconds. The
client logs in, selects its database and reads error lines: a known code is shown by its name,
any other as it is.
-/
import NamedStores.KeyValue.Driver
import NamedStores.KeyValue.Server
import NamedStores.Text.Case

namespace NamedStores.KeyValue.Resp

/-! ## Server -/

inductive Reply where
  | ok
  | value (octets : Option Bytes)
  | count (n : Nat)
  | error (line : String)

abbrev Command := List Bytes

def command (words : List String) : Command := words.map Utf8.ofString

def nanoseconds : Nat := 1000000

def run (index : Int) (words : Command) (s : Server) : Reply × Server :=
  match words with
  | [name, key] =>
    let key := Utf8.toStringLossy key
    if name = Utf8.ofString "GET" then (.value (s.store.value? index key), s)
    else if name = Utf8.ofString "DEL" then
      (.count (s.store.find? index key).toList.length,
        { s with store := s.store.erase index key })
    else (.ok, s)
  | name :: key :: value :: life =>
    if name = Utf8.ofString "SET" then
      let milliseconds := (life[1]?).bind fun n => Integer.natural? (Utf8.decodeLossy n)
      let entry : Entry := ⟨value, milliseconds.map (· * nanoseconds)⟩
      (.ok, { s with store := s.store.put index (Utf8.toStringLossy key) entry })
    else (.ok, s)
  | _ => (.ok, s)

/-- What a server answers to a command for one of its databases. -/
def answer (index : Int) (words : Command) (s : Server) : Reply × Server :=
  let s := { s with commands := s.commands ++ [words] }
  let name := String.ofList ((Utf8.decodeLossy (words.head?.getD [])).map Case.lowerAscii)
  match s.refused.get? name with
  | some line => (.error line, s)
  | none => run index words s

/-! ## Errors -/

/-- The codes of error lines that have a name of their own. -/
def knownCodes : List (String × String) := [
  ("ERR", "ResponseError"), ("EXECABORT", "ExecAbortError"), ("LOADING", "BusyLoadingError"),
  ("NOSCRIPT", "NoScriptError"), ("MOVED", "Moved"), ("ASK", "Ask"), ("TRYAGAIN", "TryAgain"),
  ("CLUSTERDOWN", "ClusterDown"), ("CROSSSLOT", "CrossSlot"), ("MASTERDOWN", "MasterDown"),
  ("READONLY", "ReadOnly"), ("NOTBUSY", "NotBusy")]

/-- The code of an error line, and what follows it. -/
def splitLine (line : String) : String × Option String :=
  let (code, detail) := Split.cutOff ' ' line.toList
  (String.ofList code, detail.map String.ofList)

/-- A description with the name of an error, and its detail if there is one. -/
def describe (description name : String) (detail : Option String) : String :=
  match detail with
  | some d => s!"{description} - {name}: {d}"
  | none => s!"{description}- {name}"

def errorText (line : String) : String :=
  let (code, detail) := splitLine line
  match (knownCodes.find? (·.1 = code)).map (·.2) with
  | some name => describe "An error was signalled by the server" name detail
  | none =>
    let detail := detail.getD "Unknown extension error encountered"
    s!"{code}: {detail}"

/-! ## Where a client connects -/

/-- Where a client connects and how it logs in. -/
structure Target where
  socket : Bytes
  userName : Option String
  password : Option String
  database : Int

def invalid (description : String) (detail : Option String) : Except String Target :=
  .error (describe description "InvalidClientConfig" detail)

/-- The protocol version of a query is 2 or 3, if it names one. -/
def wrongProtocol? (pairs : List (String × String)) : Option String :=
  ((pairs.reverse.find? (·.1 = "protocol")).map (·.2)).filter fun v =>
    v ∉ ["2", "resp2", "3", "resp3"]

/-- The file that a socket address names: its path without encoding, on this host. -/
def socketPath? (url : Url) : Option Bytes :=
  let host := (url.authority.map (·.host)).getD []
  if host ≠ [] ∧ host ≠ "localhost".toList then none
  else if url.path.head? ≠ some '/' then none
  else some (Percent.decode url.path)

def socketTarget (url : Url) : Except String Target :=
  let pairs := url.queryPairs
  let last (name : String) : Option String := (pairs.reverse.find? (·.1 = name)).map (·.2)
  match socketPath? url with
  | none => invalid "Missing path" none
  | some path =>
    let database := match last "db" with
      | some db => Integer.signed64? db.toList
      | none => some 0
    match database with
    | none => invalid "Invalid database number" none
    | some n =>
      match wrongProtocol? pairs with
      | some v => invalid "Invalid protocol version" (some v)
      | none => .ok ⟨path, last "user", last "pass", n⟩

/-- What a target that is no socket file answers: nothing listens there. -/
structure Places where
  sockets : List Bytes
  directories : List Bytes

def openSocket (places : Places) (path : Bytes) : Except String Unit :=
  let isUnder (parent : Bytes) : Bool := (parent ++ Utf8.ofString "/").isPrefixOf path
  if path.contains 0 then .error "paths must not contain interior null bytes"
  else if 108 ≤ path.length then .error "path must be shorter than SUN_LEN"
  else if path ∈ places.sockets then .ok ()
  else if path ∈ places.directories then .error "Connection refused (os error 111)"
  else if places.sockets.any isUnder then .error "Not a directory (os error 20)"
  else .error "No such file or directory (os error 2)"

def localHosts : List String := ["localhost", "127.0.0.1", "[::1]"]

/-- Connecting to a host: no server is reached over a network. -/
def openHost (url : Url) : Except String Target :=
  match url.host? with
  | none => invalid "Missing hostname" none
  | some a =>
    if url.scheme = "rediss".toList then
      invalid "can't connect with TLS, the feature is not enabled" none
    else
      match wrongProtocol? url.queryPairs with
      | some v => invalid "Invalid protocol version" (some v)
      | none =>
        if String.ofList a.host ∈ localHosts then .error "Connection refused (os error 111)"
        else .error "failed to lookup address information: Name or service not known"

/-! ## Client -/

/-- The commands that log in and select the database, where there is need of them. -/
def setup (t : Target) : List Command :=
  (t.password.map fun p => command (["AUTH"] ++ t.userName.toList ++ [p])).toList ++
    if t.database = 0 then [] else [command ["SELECT", toString t.database]]

/-- Sends commands one after the other, whatever the answers. -/
def sendAll (index : Int) : List Command → Server → List (Command × Reply) × Server
  | [], s => ([], s)
  | c :: cs, s =>
    let (reply, s) := answer index c s
    let (replies, s) := sendAll index cs s
    ((c, reply) :: replies, s)

/-- The error of the first command that was refused while setting up, if one was. -/
def setupError? : List (Command × Reply) → Option String
  | [] => none
  | (c, .error line) :: _ =>
    if c.head? = some (Utf8.ofString "AUTH") then
      some (describe "Password authentication failed" "AuthenticationFailed" none)
    else
      some (describe "Redis server refused to switch database" "ResponseError" (splitLine line).2)
  | _ :: rest => setupError? rest

def connect [Url.HostNames] (places : Places) (settings : Settings) (s : Server) :
    Except String Client × Server :=
  match settings.connectionUrl with
  | .error reason => (.error (describe "Invalid address" "InvalidClientConfig" (some reason)), s)
  | .ok url =>
    match if isSocketScheme url.scheme then socketTarget url else openHost url with
    | .error message => (.error message, s)
    | .ok target =>
      match openSocket places target.socket with
      | .error message => (.error message, s)
      | .ok _ =>
        let (replies, s) := sendAll target.database (setup target) s
        match setupError? replies with
        | some message => (.error message, s)
        | none => (.ok ⟨target.database⟩, s)

/-- A value for good, or with a time to live of at least a millisecond, counted in 64 bits. -/
def setCommand (key : String) (value : Bytes) (expiration : Option Nat) : Command :=
  let life :=
    match expiration with
    | none => []
    | some ns =>
      if ns = 0 then []
      else command ["PX", toString (max 1 (ns / nanoseconds % 0x10000000000000000))]
  command ["SET", key] ++ [value] ++ life

/-- Sends one command and reads its reply. -/
def call {α : Type} (client : Client) (words : Command) (read : Reply → α) (s : Server) :
    Except String α × Server :=
  match answer client.database words s with
  | (.error line, s) => (.error (errorText line), s)
  | (reply, s) => (.ok (read reply), s)

def driver [Url.HostNames] (places : Places) : Driver Server Client where
  connect := connect places
  ping client := call client (command ["PING"]) fun _ => ()
  get client key := call client (command ["GET", key]) fun
    | .value octets => octets
    | _ => none
  set client key value expiration := call client (setCommand key value expiration) fun _ => ()
  delete client key := call client (command ["DEL", key]) fun
    | .count n => n
    | _ => 0
  close _ s := (.ok (), s)
  now _ := 0

end NamedStores.KeyValue.Resp
