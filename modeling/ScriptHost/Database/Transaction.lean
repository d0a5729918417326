import ScriptHost.Database.Basic
/-!
# Transactions

A transaction is a script that makes calls on a connection of its own.  It may commit or roll back,
once; whatever else it does, what it has not committed is gone when it is over, be it that the
script returns, fails or breaks down.

A script may also use the database from outside of its transaction, on other connections, and while
it does so begin other transactions.
-/

set_option autoImplicit false

namespace ScriptHost.Database

/-- How long a call may take, in milliseconds, and whether it has been cancelled beforehand. -/
structure Limit where
  ms : Int := 0
  cancelled : Bool := false
deriving DecidableEq, Repr

/-- The deadline of a call that is made at a time. -/
def Limit.deadline (l : Limit) (c : Clock) : Deadline := .ofCall c l.ms l.cancelled

/-- How a transaction has ended. -/
inductive TxOutcome where
  | committed
  | rolledBack
deriving DecidableEq, Repr

namespace TxOutcome

/-- How an outcome is called. -/
def name : TxOutcome → String
  | committed => "Committed"
  | rolledBack => "RolledBack"

/-- How it is told in a message. -/
def words : TxOutcome → String
  | committed => "committed"
  | rolledBack => "rolled back"

/-- What the engine is asked for to end a transaction so. -/
def request {Statement : Type} : TxOutcome → Request Statement
  | committed => .commit
  | rolledBack => .rollback

/-- What it was about if it failed. -/
def context : TxOutcome → String
  | committed => "commit transaction"
  | rolledBack => "rollback transaction"

end TxOutcome

/-- What a script does inside of its transaction. -/
inductive TxCall (E : Engine) where
  | query (stmt : E.Statement) (params : List Value)
  | exec (stmt : E.Statement) (params : List Value)
  | commit
  | rollback
  | outcome
  /-- Cancels the deadline of the transaction. -/
  | cancel

/-- What a call inside of a transaction replies. -/
inductive TxReply where
  | rows (rows : List Value)
  | changes (n : Nat)
  | outcome (o : Option TxOutcome)
  | done

/-- What a call on a database replies; `α` is what scripts have to say. -/
inductive Reply (α : Type) where
  | rows (result : Ending (List Value))
  | changes (result : Ending Nat)
  | pool (maxSize created idle : Nat)
  | held (result : Ending (Bool × α))
  /-- The script's words are missing if it has not been started. -/
  | ended (words : Option α) (ending : Ending Unit)

mutual

/-- The calls on a database. -/
inductive Call (E : Engine) (α : Type) where
  | query (stmt : E.Statement) (params : List Value) (limit : Limit)
  | exec (stmt : E.Statement) (params : List Value) (limit : Limit)
  | pool
  /-- Runs a program while a connection is taken. -/
  | hold (limit : Limit) (program : Program E α)
  | transaction (level : IsolationLevel) (limit : Limit) (script : Script E α)

/-- Calls on a database, one after the other. -/
inductive Program (E : Engine) (α : Type) where
  | done (words : α)
  | call (c : Call E α) (next : Reply α → Program E α)

/-- What runs inside of a transaction. -/
inductive Script (E : Engine) (α : Type) where
  | done (words : α) (ending : Ending Unit)
  | call (c : TxCall E) (next : Outcome TxReply → Script E α)
  | outside (c : Call E α) (next : Reply α → Script E α)

end

variable {E : Engine}

instance {α : Type} : Inhabited (Call E α) := ⟨.pool⟩

instance {α : Type} [Inhabited α] : Inhabited (Program E α) := ⟨.done default⟩

instance {α : Type} [Inhabited α] : Inhabited (Script E α) :=
  ⟨.done default (.returned (.ok ()))⟩

/-! ## Inside of a transaction -/

/-- A transaction in progress. -/
structure Transaction where
  connection : Nat
  deadline : Deadline
  token : Token
  outcome : Option TxOutcome := none

namespace Transaction

/-- Refuses an operation on a transaction that has ended or has been cancelled. -/
def ensureOpen (tx : Transaction) (db : Database E) (operation : String) : Outcome Unit :=
  match tx.outcome with
  | some o => .error (.illegalState ("cannot " ++ operation ++ " after transaction " ++ o.words))
  | none => db.ensureLive tx.deadline operation

/-- Ends a transaction of the engine, on behalf of a transaction that has not ended. -/
def finish (tx : Transaction) (db : Database E) (o : TxOutcome) :
    Outcome TxReply × Transaction × Database E :=
  match E.perform db.store tx.connection o.request with
  | (.ok _, store) => (.ok .done, { tx with outcome := some o }, { db with store })
  | (.error f, store) =>
    let (e, db) := { db with store }.fault o.context f
    (.error e, tx, db)

/-- One call of a script. -/
def run (tx : Transaction) (db : Database E) :
    TxCall E → Outcome TxReply × Transaction × Database E
  | .query stmt params =>
    match tx.ensureOpen db "query" with
    | .error e => (.error e, tx, db)
    | .ok () => let (r, db) := db.runQuery tx.connection stmt params; (r.map .rows, tx, db)
  | .exec stmt params =>
    match tx.ensureOpen db "exec" with
    | .error e => (.error e, tx, db)
    | .ok () => let (r, db) := db.runExec tx.connection stmt params; (r.map .changes, tx, db)
  | .commit =>
    match tx.ensureOpen db "commit" with
    | .error e => (.error e, tx, db)
    | .ok () => tx.finish db .committed
  | .rollback =>
    match tx.outcome with
    | some o => (.error (.illegalState ("transaction already ended (" ++ o.name ++ ")")), tx, db)
    | none => tx.finish db .rolledBack
  | .outcome => (.ok (.outcome tx.outcome), tx, db)
  | .cancel => (.ok .done, tx, { db with clock := db.clock.cancel tx.token })

/-- What is done when the script is over: a transaction that has not ended is rolled back.  A script
that breaks down leaves that to the connection, which is about to be released. -/
def conclude (tx : Transaction) (db : Database E) : Ending Unit → Ending Unit × Database E
  | .panicked => (.panicked, db)
  | .returned (.error e) =>
    if tx.outcome.isNone && E.inTransaction db.store tx.connection then
      (.returned (.error e),
        { db with store := (E.perform db.store tx.connection .rollback).2 })
    else (.returned (.error e), db)
  | .returned (.ok ()) =>
    match tx.outcome with
    | some _ => (.returned (.ok ()), db)
    | none =>
      match tx.finish db .rolledBack with
      | (.ok _, _, db) => (.returned (.ok ()), db)
      | (.error e, _, db) => (.returned (.error e), db)

end Transaction

/-- A transaction on a connection that has been taken, if it can be begun. -/
def begin (db : Database E) (c : Nat) (plan : IsolationPlan) (deadline : Deadline) (token : Token) :
    Outcome Transaction × Database E :=
  match db.ensureLive deadline "begin transaction" with
  | .error e => (.error e, db)
  | .ok () =>
    match E.perform db.store c (.begin plan.mode) with
    | (.ok _, store) => (.ok { connection := c, deadline, token }, { db with store })
    | (.error f, store) =>
      let (e, db) := { db with store }.fault "begin transaction" f
      (.error e, db)

/-- A token that no deadline carries yet. -/
def freshToken (db : Database E) : Token × Database E :=
  (⟨db.tokens + 1⟩, { db with tokens := db.tokens + 1 })

/-- Runs a script on a connection of its own, inside of a transaction that is over afterwards, and
says what the script has to say if it has been started. -/
def transact {α : Type} (db : Database E) (level : IsolationLevel) (deadline : Deadline)
    (token : Token)
    (script : Transaction → Database E → α × Ending Unit × Transaction × Database E) :
    Option α × Ending Unit × Database E :=
  match IsolationPlan.ofLevel level with
  | .error e => (none, .returned (.error e), db)
  | .ok plan =>
    match db.checkout deadline with
    | (.panicked, db) => (none, .panicked, db)
    | (.returned (.error e), db) => (none, .returned (.error e), db)
    | (.returned (.ok c), db) =>
      match db.begin c plan deadline token with
      | (.error e, db) => (none, .returned (.error e), db.release c)
      | (.ok tx, db) =>
        let (words, ending, tx, db) := script tx db
        let (ending, db) := tx.conclude db ending
        (some words, ending, db.release c)

/-! ## Running -/

mutual

/-- Makes a call. -/
def Call.run {α : Type} (db : Database E) : Call E α → Reply α × Database E
  | .query stmt params limit =>
    let (r, db) := db.query stmt params (limit.deadline db.clock); (.rows r, db)
  | .exec stmt params limit =>
    let (r, db) := db.exec stmt params (limit.deadline db.clock); (.changes r, db)
  | .pool => (.pool db.pool.maxSize db.pool.created db.pool.idle.length, db)
  | .hold limit program =>
    match db.checkout (limit.deadline db.clock) with
    | (.panicked, db) => (.held .panicked, db)
    | (.returned (.error e), db) => (.held (.returned (.error e)), db)
    | (.returned (.ok c), db) =>
      let autocommit := !E.inTransaction db.store c
      let (words, db) := program.run db
      (.held (.returned (.ok (autocommit, words))), db.release c)
  | .transaction level limit script =>
    let (token, db) := db.freshToken
    let deadline := (limit.deadline db.clock).withCancel token
    let (words, ending, db) := transact db level deadline token fun tx db => script.run tx db
    (.ended words ending, db)

/-- Makes the calls of a program. -/
def Program.run {α : Type} (db : Database E) : Program E α → α × Database E
  | .done words => (words, db)
  | .call c next =>
    let (r, db) := c.run db
    (next r).run db

/-- Makes the calls of a script inside of its transaction. -/
def Script.run {α : Type} (tx : Transaction) (db : Database E) :
    Script E α → α × Ending Unit × Transaction × Database E
  | .done words ending => (words, ending, tx, db)
  | .call c next =>
    let (r, tx, db) := tx.run db c
    (next r).run tx db
  | .outside c next =>
    let (r, db) := c.run db
    (next r).run tx db

end

end ScriptHost.Database
