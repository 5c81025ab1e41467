/-
A database server that answers from a script: one version, one result for every query, one
count for every statement, and maybe one step of a client's work that it refuses. It keeps
the parameters that were bound last.

A plain statement has its rows sent as text, a prepared one in binary. Servers differ in when
they refuse a query: before anything is bound, or late, after the parameters of a prepared one
were bound and the rows of a plain one were sent.
-/
import NamedStores.Sql.Driver
import NamedStores.Sql.MySQL
import NamedStores.Sql.Postgres

namespace NamedStores.Sql

/-- The steps that a server may refuse. -/
inductive Stage where
  | connect
  | ping
  | prepare
  | query
  deriving DecidableEq

/-- How the servers of a product describe columns `τ` and take parameters `β`. -/
structure Dialect (τ β : Type) where
  column : τ → Column
  cell : τ → Format → Bytes → Json
  bind : List Param → β
  refusesLate : Bool

structure Script (τ β : Type) where
  version : Option String
  columns : List τ
  rows : List (List (Option Bytes))
  affected : Nat
  refused : Option (Stage × DriverError)
  bound : Option β
  isOpen : Bool

namespace Postgres

/-- A column's name and the name of its type. -/
def dialect : Dialect Column (List (String × Option Bytes)) where
  column c := c
  cell c := cell c.typeName
  bind := List.map bound
  refusesLate := true

end Postgres

namespace MySQL

def dialect : Dialect Definition Bound where
  column := Definition.column
  cell := cell
  bind := bound
  refusesLate := false

end MySQL

namespace Script

variable {τ β : Type}

def refusalAt (s : Script τ β) (stage : Stage) : Option DriverError :=
  (s.refused.filter (·.1 = stage)).map (·.2)

/-- A row as its columns read it. -/
def row (d : Dialect τ β) (f : Format) (columns : List τ) (cells : List (Option Bytes)) : Row :=
  columns.zipWith (fun c cell =>
    (d.column c, Json.ofOption (cell.map (d.cell c f)))) cells

/-- The rows of the result, sent in a format. -/
def result (d : Dialect τ β) (f : Format) (s : Script τ β) : List (Except Interruption Row) :=
  s.rows.map fun cells => .ok (row d f s.columns cells)

/-- Binds parameters, unless the server refuses to prepare the statement or refuses it early. -/
def prepare (d : Dialect τ β) (params : List Param) (s : Script τ β) :
    Except DriverError Unit × Script τ β :=
  let early := if d.refusesLate then none else s.refusalAt .query
  match s.refusalAt .prepare, early with
  | some e, _ => (.error e, s)
  | none, some e => (.error e, s)
  | none, none => (.ok (), { s with bound := some (d.bind params) })

def fetch (d : Dialect τ β) (params : List Param) (s : Script τ β) :
    List (Except Interruption Row) × Script τ β :=
  let refusal := (s.refusalAt .query).map fun e => Except.error (.failed e)
  if params.isEmpty then
    match refusal with
    | none => (s.result d .text, s)
    | some e => ((if d.refusesLate then s.result d .text else []) ++ [e], s)
  else
    match s.prepare d params with
    | (.error e, s) => ([.error (.failed e)], s)
    | (.ok _, s) =>
      match refusal with
      | none => (s.result d .binary, s)
      | some e => ([e], s)

def execute (d : Dialect τ β) (params : List Param) (s : Script τ β) :
    Except Interruption Nat × Script τ β :=
  let (prepared, s) := if params.isEmpty then (.ok (), s) else s.prepare d params
  match prepared, s.refusalAt .query with
  | .error e, _ => (.error (.failed e), s)
  | .ok _, some e => (.error (.failed e), s)
  | .ok _, none => (.ok s.affected, s)

/-- Does a step unless it is refused or no client is open. -/
def unlessRefused (stage : Stage) (s : Script τ β) : Except DriverError Unit :=
  if s.isOpen then
    match s.refusalAt stage with
    | some e => .error e
    | none => .ok ()
  else .error .poolClosed

def driver (d : Dialect τ β) : Driver (Script τ β) Unit where
  connect _ s := (({ s with isOpen := true }).unlessRefused .connect, { s with isOpen := true })
  ping _ s := (s.unlessRefused .ping, s)
  version _ s := (s.version, s)
  execute _ _ params budget s :=
    if !s.isOpen then (.error (.failed .poolClosed), s)
    else if budget = 0 then (.error .timedOut, s)
    else s.execute d params
  fetch _ _ params budget s :=
    if !s.isOpen then ([.error (.failed .poolClosed)], s)
    else if budget = 0 then ([.error .timedOut], s)
    else s.fetch d params
  close _ s := { s with isOpen := false }
  isClosed _ s := !s.isOpen
  now _ := 0

end Script

end NamedStores.Sql
