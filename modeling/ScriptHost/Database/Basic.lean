import ScriptHost.Database.Engine
import ScriptHost.Database.Pool
/-!
# Databases

A database is a pool of connections to one engine.  Each call takes a connection from the pool and
gives it back when it is over, and a connection that is given back inside a transaction leaves it
without its changes.
-/

set_option autoImplicit false

namespace ScriptHost

/-- A pool with the engine that its connections lead to. -/
structure Database (E : Database.Engine) where
  driver : Database.Driver
  connection : String
  pool : Database.Pool
  /-- The state of the engine. -/
  store : E.State
  /-- How many connections have been opened; they are numbered in this order. -/
  opened : Nat := 0
  clock : Clock := {}
  /-- How many tokens have been handed out. -/
  tokens : Nat := 0

namespace Database

/-- How a call ends: it returns what it was made for or a failure, or it breaks down. -/
inductive Ending (α : Type) where
  | returned (result : Outcome α)
  | panicked

/-- How long a statement of a caller without a deadline waits for a lock, in milliseconds. -/
def defaultWaitMs : Nat := 5000

/-- For how long a connection can be told to wait for locks, in milliseconds: some 24 days.  Whoever
tries to have it wait longer breaks down. -/
def maxWaitMs : Nat := 2147483647

/-- How long the statements of a caller wait for locks, in milliseconds. -/
def waitMs (clock : Clock) (deadline : Deadline) : Nat :=
  max 1 ((deadline.remaining clock).getD defaultWaitMs)

variable {E : Engine}

/-- The failure that the caller of a request sees, which may have taken time. -/
def fault (db : Database E) (context : String) (f : Fault) : Failure × Database E :=
  (if f.busy then .timeout (context ++ " (database busy)") else .external context .unstated,
    { db with clock := db.clock.pass f.waited })

/-- Makes a call on the pool, for which the caller waits until the deadline if it has to. -/
def callPool (db : Database E) (call : Pool.Call) (deadline : Deadline) :
    Pool.Reply × Database E :=
  match Pool.attempt call db.pool with
  | .done pool reply _ => (reply, { db with pool })
  | .blocked _ => (Pool.giveUp call, { db with clock := (deadline.wait db.clock false).2 })

/-- Prepares a connection for a caller: its statements wait for locks until the deadline.  If that
is too far away the caller breaks down and the connection is gone. -/
def lend (db : Database E) (c : Nat) (deadline : Deadline) : Ending Nat × Database E :=
  let ms := waitMs db.clock deadline
  if maxWaitMs < ms then (.panicked, db)
  else (.returned (.ok c), { db with store := E.setWait db.store c ms })

/-- Takes a connection from the pool. -/
def checkout (db : Database E) (deadline : Deadline) : Ending Nat × Database E :=
  match db.callPool .reserve deadline with
  | (.connection c, db) => db.lend c deadline
  | (.place, db) =>
    match E.connect db.store db.opened with
    | (.ok (), store) => { db with store, opened := db.opened + 1 }.lend db.opened deadline
    | (.error f, store) =>
      let (e, db) := { db with store }.fault "open sqlite connection" f
      (.returned (.error e), (db.callPool .failed .never).2)
  | (.refused f, db) => (.returned (.error f), db)
  | (.done, db) => (.returned (.error (.timeout "check out a database connection")), db)

/-- Gives a connection back, outside of any transaction. -/
def release (db : Database E) (c : Nat) : Database E :=
  let store :=
    if E.inTransaction db.store c then (E.perform db.store c .rollback).2 else db.store
  ({ db with store }.callPool (.giveBack c) .never).2

/-- Runs an operation on a connection from the pool. -/
def withConnection {α : Type} (db : Database E) (deadline : Deadline)
    (f : Nat → Database E → Outcome α × Database E) : Ending α × Database E :=
  match db.checkout deadline with
  | (.panicked, db) => (.panicked, db)
  | (.returned (.error e), db) => (.returned (.error e), db)
  | (.returned (.ok c), db) =>
    let (r, db) := f c db
    (.returned r, db.release c)

/-! ## Statements -/

/-- The columns of a row that are wanted, with their values. -/
def readColumns : List String → List Cell → Outcome (List (String × Value))
  | [], _ => .ok []
  | _ :: _, [] => .error (.external "read column" .unstated)
  | name :: columns, cell :: row => do
    let fields ← readColumns columns row
    return (name, cell.toValue) :: fields

/-- The map that a script gets for a row; of several columns with one name, the last counts. -/
def readRow (columns : List String) (row : List Cell) : Outcome Value :=
  (readColumns columns row).map Value.ofFields

/-- What a query was about when it failed. -/
def queryContext : Stage → String
  | .prepare => "prepare query"
  | .run => "query"

/-- All rows of a statement. -/
def runQuery (db : Database E) (c : Nat) (stmt : E.Statement) (params : List Value) :
    Outcome (List Value) × Database E :=
  match E.perform db.store c (.run stmt (params.map Cell.ofValue)) with
  | (.ok answer, store) => (answer.rows.mapM (readRow answer.columns), { db with store })
  | (.error f, store) =>
    let (e, db) := { db with store }.fault (queryContext f.stage) f
    (.error e, db)

/-- What a statement that is not a query was about. -/
def execContext : String := "execute statement"

/-- How many rows a statement has changed; one that has rows to show is refused after it has run. -/
def runExec (db : Database E) (c : Nat) (stmt : E.Statement) (params : List Value) :
    Outcome Nat × Database E :=
  match E.perform db.store c (.run stmt (params.map Cell.ofValue)) with
  | (.ok answer, store) =>
    (if answer.rows.isEmpty then .ok answer.changes else .error (.external execContext .unstated),
      { db with store })
  | (.error f, store) =>
    let (e, db) := { db with store }.fault execContext f
    (.error e, db)

/-- Statements are bounded by the time a connection waits for locks, so only a cancelled deadline
keeps one from starting. -/
def ensureLive (db : Database E) (deadline : Deadline) (operation : String) : Outcome Unit :=
  if deadline.isCancelled db.clock then .error (.timeout operation) else .ok ()

/-- Tries a connection out. -/
def ping (db : Database E) (c : Nat) : Outcome Unit × Database E :=
  match E.perform db.store c (.run E.ping []) with
  | (.ok answer, store) =>
    (if answer.rows.isEmpty then .error (.external "ping database" .unstated) else .ok (),
      { db with store })
  | (.error f, store) =>
    let (e, db) := { db with store }.fault "ping database" f
    (.error e, db)

/-- Opens a database and tries it out.  `store` is what an engine finds at a target. -/
def «open» (clock : Clock) (driver connection : String) (poolSize : Nat)
    (store : Target → E.State) : Outcome (Database E) :=
  match Driver.ofName driver with
  | .error e => .error e
  | .ok driver =>
    let target := Target.ofText connection
    let pool := Pool.ofTarget target poolSize
    let db : Database E := { driver, connection, pool, store := store target, clock }
    match db.withConnection (.after clock defaultWaitMs) fun c db => db.ping c with
    | (.returned (.ok ()), db) => .ok db
    | (.returned (.error e), _) => .error e
    -- this deadline is not too far away
    | (.panicked, _) => .error (.external "ping database" .unstated)

/-- Runs a statement outside of any transaction and returns all of its rows. -/
def query (db : Database E) (stmt : E.Statement) (params : List Value) (deadline : Deadline) :
    Ending (List Value) × Database E :=
  db.withConnection deadline fun c db =>
    match db.ensureLive deadline "database query" with
    | .ok () => db.runQuery c stmt params
    | .error e => (.error e, db)

/-- Runs a statement outside of any transaction and returns how many rows it has changed. -/
def exec (db : Database E) (stmt : E.Statement) (params : List Value) (deadline : Deadline) :
    Ending Nat × Database E :=
  db.withConnection deadline fun c db =>
    match db.ensureLive deadline "database exec" with
    | .ok () => db.runExec c stmt params
    | .error e => (.error e, db)

end Database

end ScriptHost
