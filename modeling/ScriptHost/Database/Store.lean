import ScriptHost.Database.Engine
import ScriptHost.Database.Table
/-!
# The store

A store is an engine.  It keeps the committed tables and the state of each connection.  A connection
that is inside of a transaction works on tables of its own, which nobody else sees; they become the
committed ones when it commits.  Outside of any transaction every statement is a transaction by
itself.

Connections keep out of each other's way with locks.  Any number may read while one prepares to
write, but it can commit changes only when nobody else is reading, and from the moment it has tried
to, nobody else begins to read.  A connection that finds the store locked waits for as long as it
has been told to and gives up.
-/

set_option autoImplicit false

namespace ScriptHost.Database

/-- What a connection keeps others from doing. -/
inductive LockLevel where
  | none
  | shared
  | reserved
  | pending
deriving DecidableEq, Repr

/-- A lock keeps others from whatever a lower one does. -/
def LockLevel.rank : LockLevel → Nat
  | none => 0
  | shared => 1
  | reserved => 2
  | pending => 3

/-- The state of a connection. -/
structure Session where
  inTransaction : Bool := false
  lock : LockLevel := .none
  /-- The tables as the transaction has changed them. -/
  working : Option Tables := none
  /-- How many rows the last statement changed that reports so. -/
  changes : Nat := 0
  /-- How long to wait for a lock, in milliseconds. -/
  busyMs : Nat := 5000
  /-- Whether the connection has read before which tables there are. -/
  knowsTables : Bool := false
deriving DecidableEq, Repr, Inhabited

namespace Session

/-- Inside of a transaction that has changed nothing yet. -/
def enter (s : Session) (lock : LockLevel) : Session :=
  { s with inTransaction := true, lock, working := none }

/-- Outside of any transaction again. -/
def leave (s : Session) : Session :=
  { s with inTransaction := false, lock := .none, working := none }

/-- Locks are not given back while a transaction lasts. -/
def take (s : Session) (level : LockLevel) : Session :=
  if s.inTransaction && s.lock.rank < level.rank then { s with lock := level } else s

/-- Notes how many rows a statement has changed, if it is one that says so. -/
def note (s : Session) (stmt : Statement) (changes : Nat) : Session :=
  if stmt.countsChanges then { s with changes } else s

end Session

/-- The committed tables, and the connections. -/
structure Store where
  /-- Whether connections can be opened. -/
  reachable : Bool := true
  tables : Tables := []
  sessions : List (Nat × Session) := []
deriving DecidableEq, Repr, Inhabited

namespace Store

/-- The state of a connection. -/
def session (st : Store) (id : Nat) : Session := (st.sessions.lookup id).getD {}

/-- The store with another state of one connection. -/
def setSession (st : Store) (id : Nat) (s : Session) : Store :=
  { st with sessions := (id, s) :: st.sessions.filter (·.1 ≠ id) }

/-- The tables as a connection sees them. -/
def view (st : Store) (id : Nat) : Tables := (st.session id).working.getD st.tables

/-- The highest lock of the other connections. -/
def lockOfOthers (st : Store) (id : Nat) : Nat :=
  ((st.sessions.filter (·.1 ≠ id)).map (·.2.lock.rank)).foldl max 0

/-- Nobody is about to commit. -/
def canRead (st : Store) (id : Nat) : Bool :=
  (st.session id).lock ≠ .none || st.lockOfOthers id < LockLevel.pending.rank

/-- Nobody else writes. -/
def canWrite (st : Store) (id : Nat) : Bool :=
  st.canRead id && st.lockOfOthers id < LockLevel.reserved.rank

/-- Nobody else reads. -/
def canCommit (st : Store) (id : Nat) : Bool := st.lockOfOthers id = LockLevel.none.rank

/-- A connection has waited for a lock in vain. -/
def busy (st : Store) (id : Nat) (stage : Stage) : Fault := ⟨stage, true, (st.session id).busyMs⟩

/-- A request makes no sense. -/
def wrong (stage : Stage) : Fault := { stage, busy := false }

/-- A store with a new connection. -/
def connect (st : Store) (id : Nat) : Except Fault Unit × Store :=
  if st.reachable then (.ok (), st.setSession id {}) else (.error (wrong .prepare), st)

/-- Has a connection wait for locks for some milliseconds. -/
def setWait (st : Store) (id : Nat) (busyMs : Nat) : Store :=
  st.setSession id { st.session id with busyMs }

/-! ## Transactions -/

/-- Begins a transaction, with the lock for writing if it is to have it at once. -/
def begin (st : Store) (id : Nat) (mode : BeginMode) : Except Fault Unit × Store :=
  let s := st.session id
  if s.inTransaction then (.error (wrong .run), st)
  else
    match mode with
    | .deferred => (.ok (), st.setSession id (s.enter s.lock))
    | .immediate =>
      if st.canWrite id then (.ok (), st.setSession id (s.enter .reserved))
      else (.error (st.busy id .run), st)

/-- Makes the tables of the transaction the committed ones.  One that may write has to be alone for
that even if it has changed nothing; if it is not, it goes on, and nobody else begins to read until
it has ended. -/
def commit (st : Store) (id : Nat) : Except Fault Unit × Store :=
  let s := st.session id
  if !s.inTransaction then (.error (wrong .run), st)
  else if s.lock.rank < LockLevel.reserved.rank || st.canCommit id then
    (.ok (), { st with tables := st.view id }.setSession id s.leave)
  else (.error (st.busy id .run), st.setSession id { s with lock := .pending })

/-- Forgets the tables of the transaction. -/
def rollback (st : Store) (id : Nat) : Except Fault Unit × Store :=
  let s := st.session id
  if !s.inTransaction then (.error (wrong .run), st) else (.ok (), st.setSession id s.leave)

/-! ## Statements -/

/-- Whether a statement has to know which tables there are. -/
def needsTables (stmt : Statement) : Bool :=
  match stmt.access with
  | .read | .write => true
  | .nothing | .control => false

/-- Checks a statement before it runs. -/
def prepare (st : Store) (id : Nat) (stmt : Statement) : Except Fault Unit × Store :=
  let s := st.session id
  if needsTables stmt && !s.knowsTables && !st.canRead id then
    (.error (st.busy id .prepare), st)
  else
    let st := if needsTables stmt then st.setSession id { s with knowsTables := true } else st
    if stmt.fits (st.view id) then (.ok (), st) else (.error (wrong .prepare), st)

/-- Runs a statement that only looks at the tables. -/
def read (st : Store) (id : Nat) (stmt : Statement) (params : List Cell) :
    Except Fault Answer × Store :=
  if !st.canRead id then (.error (st.busy id .run), st)
  else
    let s := st.session id
    match stmt.effect? (st.view id) params with
    | none => (.error (wrong .run), st)
    | some e =>
      let answer : Answer := { columns := e.columns, rows := e.rows, changes := s.changes }
      (.ok answer, st.setSession id (s.take .shared))

/-- Runs a statement that may change the tables.  One that fails has changed no row. -/
def write (st : Store) (id : Nat) (stmt : Statement) (params : List Cell) :
    Except Fault Answer × Store :=
  let s := st.session id
  if !st.canWrite id then (.error (st.busy id .run), st.setSession id (s.note stmt 0))
  else
    let s := s.take .reserved
    match stmt.effect? (st.view id) params with
    | none => (.error (wrong .run), st.setSession id (s.note stmt 0))
    | some e =>
      let done := s.note stmt e.changes
      let answer : Answer := { columns := e.columns, rows := e.rows, changes := done.changes }
      if s.inTransaction then (.ok answer, st.setSession id { done with working := some e.tables })
      else if st.canCommit id then (.ok answer, { st with tables := e.tables }.setSession id done)
      else (.error (st.busy id .run), st.setSession id (s.note stmt 0))

/-- Runs a statement that has been prepared. -/
def runPrepared (st : Store) (id : Nat) (stmt : Statement) (params : List Cell) :
    Except Fault Answer × Store :=
  if params.length ≠ stmt.parameters then (.error (wrong .run), st)
  else
    let params := params.map Cell.stored
    let changes := (st.session id).changes
    match stmt with
    | .begin mode => let (r, st) := st.begin id mode; (r.map fun _ => { changes }, st)
    | .commit => let (r, st) := st.commit id; (r.map fun _ => { changes }, st)
    | .rollback => let (r, st) := st.rollback id; (r.map fun _ => { changes }, st)
    | stmt =>
      match stmt.access with
      | .read => st.read id stmt params
      | .write => st.write id stmt params
      | _ =>
        match stmt.effect? (st.view id) params with
        | none => (.error (wrong .run), st)
        | some e => (.ok { columns := e.columns, rows := e.rows, changes }, st)

/-- Checks a statement and runs it. -/
def execute (st : Store) (id : Nat) (stmt : Statement) (params : List Cell) :
    Except Fault Answer × Store :=
  match st.prepare id stmt with
  | (.error f, st) => (.error f, st)
  | (.ok (), st) => st.runPrepared id stmt params

/-- Whatever is asked for on a connection. -/
def perform (st : Store) (id : Nat) : Request Statement → Except Fault Answer × Store
  | .begin mode => let (r, st) := st.begin id mode; (r.map fun _ => {}, st)
  | .commit => let (r, st) := st.commit id; (r.map fun _ => {}, st)
  | .rollback => let (r, st) := st.rollback id; (r.map fun _ => {}, st)
  | .run stmt params => st.execute id stmt params

/-- The store as an engine. -/
@[reducible] def engine : Engine where
  Statement := Statement
  State := Store
  ping := .numbers [("1", 1)]
  connect := connect
  setWait := setWait
  perform := perform
  inTransaction st c := (st.session c).inTransaction

end Store

end ScriptHost.Database
