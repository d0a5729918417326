import ScriptHost.Database.Cell
import ScriptHost.Database.Isolation
/-!
# Engines

The tables of a database are kept by an engine, a program of its own.  A database opens connections
to it and makes requests on them; what becomes of a request, and what the engine remembers, is up to
the engine.  Everything about databases is said of any engine; one that runs is `Store.engine`.
-/

set_option autoImplicit false

namespace ScriptHost.Database

/-- What can be asked for on a connection. -/
inductive Request (Statement : Type) where
  | begin (mode : BeginMode)
  | commit
  | rollback
  /-- Any other statement, or one of these in its own words, with its parameters. -/
  | run (stmt : Statement) (params : List Cell)

/-- What a request has to show. -/
structure Answer where
  /-- The names of the columns, of which several may be the same. -/
  columns : List String := []
  /-- The rows, in the order in which they are found. -/
  rows : List (List Cell) := []
  /-- How many rows have been changed. -/
  changes : Nat := 0
deriving DecidableEq, Repr

/-- How far a request has got that fails. -/
inductive Stage where
  /-- It has not been understood. -/
  | prepare
  | run
deriving DecidableEq, Repr

/-- Why a request has failed. -/
structure Fault where
  stage : Stage
  /-- Somebody else keeps the tables locked. -/
  busy : Bool
  /-- For how long that was waited for, in milliseconds. -/
  waited : Nat := 0
deriving DecidableEq, Repr

/-- A program that keeps tables and runs statements.  Its connections go by numbers. -/
structure Engine where
  Statement : Type
  State : Type
  /-- A statement with a row to show, with which a connection is tried out. -/
  ping : Statement
  /-- Opens the connection `c`, if that is possible. -/
  connect (s : State) (c : Nat) : Except Fault Unit × State
  /-- Has the requests on a connection wait for locks for some milliseconds. -/
  setWait (s : State) (c : Nat) (ms : Nat) : State
  perform (s : State) (c : Nat) (request : Request Statement) : Except Fault Answer × State
  /-- Whether a connection is inside of a transaction. -/
  inTransaction (s : State) (c : Nat) : Bool

end ScriptHost.Database
