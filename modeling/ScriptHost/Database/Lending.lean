import ScriptHost.Database.Basic
/-!
# Many users of one pool

Users run at the same time and get their connections from one pool.  Each of them asks the pool, and
may have to wait.  It gets a connection, or a place for one that it opens itself; it sets the
connection up, makes requests on it, and gives it back, be it that it is done or that it breaks
down.

A user that is making a call on the pool is one of the callers of the pool.  Between two such calls
it has something in hand, with which it goes on without the pool.  There is one exception: who gets
a connection that has been used before stays in the guarded section of the pool until that
connection is set up, and keeps everybody else out.  If the connection cannot be set up it wants to
enter once more to give it back, and waits for itself.

`Lending.step` is this behaviour one step at a time, with the next step chosen from outside.
`Database.checkout` and `Database.release` are what becomes of this when a user is alone.
-/

set_option autoImplicit false

namespace ScriptHost.Database

/-- What a user has between two calls on the pool. -/
inductive Hand where
  /-- It may open a connection. -/
  | place (deadline : Deadline)
  /-- It has opened a connection, which is still to be set up. -/
  | fresh (connection : Nat) (deadline : Deadline)
  /-- It has been given a connection, which is still to be set up, and has not left the pool yet. -/
  | reused (connection : Nat) (deadline : Deadline)
  /-- It may make requests on a connection. -/
  | ready (connection : Nat)
  /-- It has not left the pool and cannot enter it to give its connection back. -/
  | stuck (connection : Nat)
  /-- It has broken down before its connection was set up, and has not given it back. -/
  | lost (connection : Nat)
deriving DecidableEq, Repr

/-- The user keeps others out of the pool. -/
def Hand.guards : Hand → Bool
  | .reused .. | .stuck _ => true
  | .place _ | .fresh .. | .ready _ | .lost _ => false

/-- What a user has from the reply to a call on the pool. -/
def Hand.ofReply (deadline : Deadline) : Pool.Reply → Option Hand
  | .connection c => some (.reused c deadline)
  | .place => some (.place deadline)
  | .refused _ | .done => none

/-- A pool with its engine, its callers, and what users have in hand. -/
structure Lending (E : Engine) where
  pool : Monitor.Machine Pool.protocol
  store : E.State
  /-- How many connections have been opened. -/
  opened : Nat := 0
  hands : List Hand := []

namespace Lending

variable {E : Engine}

/-- A pool that nobody has used yet. -/
def new (store : E.State) (target : Target) (maxSize : Nat) : Lending E :=
  { pool := { state := .ofTarget target maxSize }, store }

/-- The steps of users. -/
inductive Label (E : Engine) where
  | ask (deadline : Deadline)
  /-- The callers of the pool go on, or time passes. -/
  | pool (label : Monitor.Machine.Label Pool.protocol)
  /-- Caller `id` gets its reply. -/
  | receive (id : Nat)
  /-- User `i` tries to open a connection. -/
  | openUp (i : Nat)
  /-- It tries to set a connection up. -/
  | setUp (i : Nat) (succeeded : Bool)
  | execute (i : Nat) (request : Request E.Statement)
  /-- It has returned or broken down. -/
  | finish (i : Nat)

/-- A user makes a call on the pool. -/
def call (l : Lending E) (c : Pool.Call) (deadline : Deadline) : Lending E :=
  { l with pool := { l.pool with
      callers := l.pool.callers ++ [⟨l.pool.nextId, c, deadline, .entering⟩]
      nextId := l.pool.nextId + 1 } }

/-- User `i` has nothing in hand any more. -/
def drop (l : Lending E) (i : Nat) : Lending E := { l with hands := l.hands.eraseIdx i }

/-- User `i` has something else in hand. -/
def hold (l : Lending E) (i : Nat) (hand : Hand) : Lending E :=
  { l with hands := l.hands.set i hand }

/-- Somebody is in the guarded section of the pool. -/
def isGuarded (l : Lending E) : Bool :=
  l.hands.any Hand.guards ||
    l.pool.callers.any fun c =>
      match c.phase with
      | .finished (.connection _) => true
      | _ => false

/-- The callers of the pool go on; nobody enters while somebody is in the guarded section. -/
def stepPool (l : Lending E) : Monitor.Machine.Label Pool.protocol → Option (Lending E)
  | .arrive _ _ => none
  | .enter id =>
    if l.isGuarded then none else (l.pool.step (.enter id)).map fun pool => { l with pool }
  | label => (l.pool.step label).map fun pool => { l with pool }

/-- User `i` tries to open a connection; its place is given back if that fails. -/
def openUp (l : Lending E) (i : Nat) : Option (Lending E) :=
  match l.hands[i]? with
  | some (.place deadline) =>
    match E.connect l.store l.opened with
    | (.ok (), store) =>
      some { l.hold i (.fresh l.opened deadline) with store, opened := l.opened + 1 }
    | (.error _, store) => some ({ l.drop i with store }.call .failed .never)
  | _ => none

/-- The requests of a user wait for locks until its deadline, unless that is too far away. -/
def setUp (l : Lending E) (i : Nat) (succeeded : Bool) : Option (Lending E) :=
  let attempt (c : Nat) (deadline : Deadline) (failed : Lending E) : Lending E :=
    let ms := waitMs l.pool.clock deadline
    if maxWaitMs < ms then l.hold i (.lost c)
    else if succeeded then { l.hold i (.ready c) with store := E.setWait l.store c ms }
    else failed
  match l.hands[i]? with
  | some (.fresh c deadline) => some (attempt c deadline ((l.drop i).call (.giveBack c) .never))
  | some (.reused c deadline) => some (attempt c deadline (l.hold i (.stuck c)))
  | _ => none

/-- User `i` makes a request on its connection. -/
def execute (l : Lending E) (i : Nat) (request : Request E.Statement) : Option (Lending E) :=
  match l.hands[i]? with
  | some (.ready c) => some { l with store := (E.perform l.store c request).2 }
  | _ => none

/-- A connection is given back outside of any transaction. -/
def finish (l : Lending E) (i : Nat) : Option (Lending E) :=
  match l.hands[i]? with
  | some (.ready c) =>
    let store := if E.inTransaction l.store c then (E.perform l.store c .rollback).2 else l.store
    some ({ l.drop i with store }.call (.giveBack c) .never)
  | _ => none

/-- A caller of the pool takes its reply in hand. -/
def receive (l : Lending E) (id : Nat) : Option (Lending E) := do
  let c ← l.pool.find? id
  let reply ← l.pool.reply? id
  let hand := Hand.ofReply c.deadline reply
  some { l with pool := (l.pool.take id).2, hands := l.hands ++ hand.toList }

/-- The state after a step, if it can be taken. -/
def step (l : Lending E) : Label E → Option (Lending E)
  | .ask deadline => some (l.call .reserve deadline)
  | .pool label => l.stepPool label
  | .receive id => l.receive id
  | .openUp i => l.openUp i
  | .setUp i succeeded => l.setUp i succeeded
  | .execute i request => l.execute i request
  | .finish i => l.finish i

end Lending

end ScriptHost.Database
