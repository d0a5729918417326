import ScriptHost.Capability.Registry
/-!
# Using capabilities

What a script can do with a capability, as data.  A use is started and is then either over or waits
for other callers; whoever started it looks for its reply after something has happened.  For a
caller that is alone the only thing that can happen is that its deadline passes.
-/

set_option autoImplicit false

namespace ScriptHost

/-- What the use of a capability answers. -/
inductive UseReply (ε : Type) where
  | done
  | item (v : Option Value)
  | items (vs : List Value)
  | flag (b : Bool)
  | count (n : Nat)
  | text (s : String)
  /-- What was logged during a call on a bus. -/
  | log (entries : List ε)

/-- What can be done with a capability; entries `ε` are what listeners leave in a log. -/
inductive Use (ε : Type) where
  | queue (c : Queue.Call Value)
  /-- Looks at a queue, which changes nothing. -/
  | look (f : Queue Value → UseReply ε)
  | lock (holder : Holder)
  | unlock (holder : Holder)
  | isHeld
  | lockName
  | cache (c : Cache.Call Value)
  /-- Has a cache swept in the background at an interval, or no longer. -/
  | sweeper (interval : Option Nat)
  /-- A call on a bus; its reply is left in the log as an entry. -/
  | bus (c : Bus.Call Value ε) (entry : Bus.Reply Value → ε)
  | exec (s : Database.Statement) (params : List Value)
  | query (s : Database.Statement) (params : List Value)
  | resolve (url : String)

namespace UseReply

variable {ε : Type}

/-- The answer of a queue. -/
def ofQueue : Queue.Reply Value → Outcome (UseReply ε)
  | .stored r => r.map fun () => done
  | .polled v => .ok (item v)
  | .drained vs => .ok (items vs)

/-- The answer of a cache. -/
def ofCache : Cache.Reply Value → UseReply ε
  | .stored => done
  | .value v => item v
  | .flag b => flag b
  | .count n => count n

/-- The answer of the table of locks. -/
def ofLock : LockTable.Reply → Outcome (UseReply ε)
  | .result r => r.map fun () => done
  | .released ns => .ok (count ns.length)

end UseReply

/-- A use that waits: the number of the queue, if it is not a lock that it waits for, and of the
caller. -/
inductive Waiting where
  | queue (id caller : Nat)
  | lock (caller : Nat)
deriving DecidableEq, Repr

namespace Registry

variable {ε : Type}

/-- A use is over or waits. -/
abbrev Start (ε : Type) := Database.Ending (UseReply ε) ⊕ Waiting

/-- A use that is over with a reply. -/
def replied (reply : Outcome (UseReply ε)) : Start ε := .inl (.returned reply)

/-- Does something with the queue or the lock table in which a use waits. -/
def onWaiting (r : Registry ε) (w : Waiting)
    (f : (P : Monitor.Protocol) → [DecidableEq P.Cond] → Nat → Monitor.Machine P →
      Option P.Reply × Monitor.Machine P) :
    Option (Outcome (UseReply ε)) × Registry ε :=
  match w with
  | .lock caller =>
    let (reply, locks) := f LockTable.protocol caller { r.locks with clock := r.clock }
    (reply.map UseReply.ofLock, { r with locks, clock := r.clock.advanceTo locks.clock.now })
  | .queue id caller =>
    match r.resource? id with
    | some (.queue m) =>
      let (reply, m) := f (Queue.protocol Value) caller { m with clock := r.clock }
      (reply.map UseReply.ofQueue,
        { r with clock := r.clock.advanceTo m.clock.now }.setResource id (.queue m))
    | _ => (none, r)

/-- The reply to a use that waits, if there is one by now. -/
def poll (r : Registry ε) (w : Waiting) : Option (Outcome (UseReply ε)) × Registry ε :=
  r.onWaiting w fun _ _ caller m => m.settle.take caller

/-- Lets time pass until a use that waits has its reply; `none` if it waits for ever. -/
def await (r : Registry ε) (w : Waiting) : Option (Outcome (UseReply ε)) × Registry ε :=
  r.onWaiting w fun _ _ caller m => m.await caller

/-- A use that is over if there is a reply, and waits otherwise. -/
def started (w : Waiting) : Option (Outcome (UseReply ε)) × Registry ε → Start ε × Registry ε
  | (some reply, r) => (replied reply, r)
  | (none, r) => (.inr w, r)

/-- Starts a call on the table of locks. -/
def startLock (r : Registry ε) (c : LockTable.Call) (d : Deadline) : Start ε × Registry ε :=
  let (caller, locks) := { r.locks with clock := r.clock }.start c d
  started (.lock caller) ({ r with locks }.poll (.lock caller))

/-- Starts a call on a queue. -/
def startQueue (r : Registry ε) (id : Nat) (c : Queue.Call Value) (d : Deadline) :
    Start ε × Registry ε :=
  match r.resource? id with
  | some (.queue m) =>
    let (caller, m) := { m with clock := r.clock }.start c d
    started (.queue id caller) ((r.setResource id (.queue m)).poll (.queue id caller))
  | _ => (replied (.error (.illegalState "not a queue")), r)

/-- Uses a database; time may pass meanwhile, and the user may break down. -/
def onDatabase {α : Type} (r : Registry ε) (id : Nat) (reply : α → UseReply ε)
    (f : Database Database.Store.engine → Database.Ending α × Database Database.Store.engine) :
    Start ε × Registry ε :=
  match r.resource? id with
  | some (.database db) =>
    let (ending, db) := f { db with clock := r.clock }
    let r := { r with clock := r.clock.advanceTo db.clock.now }.setResource id (.database db)
    match ending with
    | .returned a => (replied (a.map reply), r)
    | .panicked => (.inl .panicked, r)
  | _ => (replied (.error (.illegalState "not a database")), r)

/-- More steps than any script of listeners takes that comes to an end. -/
def busFuel : Nat := 1000000

/-- Makes a call on an event bus from outside.  All that it sets off is run to its end, and the
answer is the log. -/
def onBus (r : Registry ε) (id : Nat) (c : Bus.Call Value ε) (entry : Bus.Reply Value → ε) :
    Start ε × Registry ε :=
  match r.resource? id with
  | some (.eventBus s) =>
    let program := .call c fun reply => .note (entry reply) .done
    let s := Bus.Session.run busFuel { control := .run program }
      { s with clock := r.clock, log := [] }.serve
    (replied (.ok (.log s.log)),
      { r with clock := r.clock.advanceTo s.clock.now }.setResource id (.eventBus s))
  | _ => (replied (.error (.illegalState "not an event bus")), r)

/-- Starts a use. -/
def start (r : Registry ε) (c : Capability) (u : Use ε) (d : Deadline) : Start ε × Registry ε :=
  match c, u with
  | .queue id, .queue call | .pipe id, .queue call => r.startQueue id call d
  | .queue id, .look f | .pipe id, .look f =>
    match r.resource? id with
    | some (.queue m) => (replied (.ok (f m.state)), r)
    | _ => (replied (.error (.illegalState "not a queue")), r)
  | .lock name, .lock h => r.startLock (.lock name h) d
  | .lock name, .unlock h => r.startLock (.unlock name h) d
  | .lock name, .isHeld => (replied (.ok (.flag (r.locks.state.holder? name).isSome)), r)
  | .lock name, .lockName => (replied (.ok (.text name)), r)
  | .cache id, .cache call =>
    match r.resource? id with
    | some (.cache x) =>
      let (reply, x) := (x.catchUp r.clock).call r.clock call
      (replied (.ok (.ofCache reply)), r.setResource id (.cache x))
    | _ => (replied (.error (.illegalState "not a cache")), r)
  | .cache id, .sweeper interval =>
    match r.resource? id, interval with
    | some (.cache x), some ms =>
      match (x.catchUp r.clock).startSweeper r.clock ms with
      | .ok x => (replied (.ok .done), r.setResource id (.cache x))
      | .error e => (replied (.error e), r)
    | some (.cache x), none =>
      (replied (.ok .done), r.setResource id (.cache (x.catchUp r.clock).stopSweeper))
    | _, _ => (replied (.error (.illegalState "not a cache")), r)
  | .eventBus id, .bus call entry => r.onBus id call entry
  | .database id, .exec s ps => r.onDatabase id .count (·.exec s ps d)
  | .database id, .query s ps => r.onDatabase id .items (·.query s ps d)
  | .httpClient id, .resolve url =>
    match r.resource? id with
    | some (.httpClient x) => (replied ((x.resolve url).map fun u => .text u.text), r)
    | _ => (replied (.error (.illegalState "not an http client")), r)
  | _, _ =>
    (replied (.error (.illegalState ("a " ++ c.kind.name ++ " cannot be used like that"))), r)

/-- Uses a capability and waits for the reply; `none` if there never is one. -/
def use (r : Registry ε) (c : Capability) (u : Use ε) (d : Deadline) :
    Option (Outcome (UseReply ε)) × Registry ε :=
  match r.start c u d with
  | (.inl (.returned reply), r) => (some reply, r)
  | (.inl .panicked, r) => (none, r)
  | (.inr w, r) => r.await w

/-- Uses a capability several times in a row, up to the first failure. -/
def useAll (r : Registry ε) (c : Capability) (d : Deadline) :
    Option (Outcome (UseReply ε)) → List (Use ε) → Option (Outcome (UseReply ε)) × Registry ε
  | reply, [] => (reply, r)
  | some (.error e), _ => (some (.error e), r)
  | _, u :: rest =>
    let (reply, r) := r.use c u d
    r.useAll c d reply rest

/-- Gives back all locks of a holder, and says which. -/
def releaseLocks (r : Registry ε) (h : Holder) : List String × Registry ε :=
  let (reply, locks) := { r.locks with clock := r.clock }.call (.releaseAll h) .never
  (match reply with | some (.released ns) => ns | _ => [], { r with locks })

end Registry

end ScriptHost
