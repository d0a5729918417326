import ScriptHost.Deadline
/-!
# Monitors: calls that wait for one another

A resource that is shared between callers is guarded by a lock.  A call enters the guarded section
and either does its work at once or finds that it has to wait, in which case it joins the callers
that wait for a condition.  A call that has done its work may afterwards wake one or all of the
callers that wait for some condition; this is a step of its own, between which and the work other
callers may enter.  A waiting call may also wake by itself, because its deadline has passed or for
no reason, and then starts over: it looks at the resource first and only then at the deadline.

`Machine.step` is this behaviour, one step at a time, with the next step chosen from outside; what
holds after every sequence of steps holds for every interleaving.  `Machine.settle` and
`Machine.await` choose the steps in the order of arrival, which is the run that scripts see.
-/

set_option autoImplicit false

namespace ScriptHost.Monitor

/-- Whom a call wakes when it leaves. -/
inductive Signal (Cond : Type) where
  | nobody
  | one (c : Cond)
  | all (c : Cond)

/-- What a call finds in the guarded section. -/
inductive Attempt (σ Reply Cond : Type) where
  | blocked (on : Cond)
  | done (state : σ) (reply : Reply) (signal : Signal Cond)

/-- The calls on one kind of resource. -/
structure Protocol where
  State : Type
  Call : Type
  Reply : Type
  Cond : Type
  attempt : Call → State → Attempt State Reply Cond
  /-- The reply to a call whose deadline has passed while it had to wait. -/
  giveUp : Call → Reply

/-- How far a caller has come: it tries to get in, waits to be woken, has still to wake others, or
has its reply. -/
inductive Phase (P : Protocol) where
  | entering
  | waiting (on : P.Cond)
  | signalling (signal : Signal P.Cond) (reply : P.Reply)
  | finished (reply : P.Reply)

/-- A call under way. -/
structure Caller (P : Protocol) where
  id : Nat
  call : P.Call
  deadline : Deadline
  phase : Phase P

/-- The state that callers share, their calls, and the time. -/
structure Machine (P : Protocol) where
  state : P.State
  callers : List (Caller P) := []
  nextId : Nat := 0
  clock : Clock := {}

namespace Machine

variable {P : Protocol}

/-- The steps that a machine can take. -/
inductive Label (P : Protocol) where
  | arrive (call : P.Call) (deadline : Deadline)
  /-- Caller `id` gets the lock. -/
  | enter (id : Nat)
  /-- Caller `id` sends its signal; `woken` is the caller that a signal to one reaches. -/
  | signal (id : Nat) (woken : Option Nat)
  /-- Caller `id` stops waiting by itself. -/
  | wake (id : Nat)
  | pass (ms : Nat)
  | cancel (token : Token)

/-- The caller with a number. -/
def find? (m : Machine P) (id : Nat) : Option (Caller P) := m.callers.find? (·.id = id)

/-- Takes a caller to another phase. -/
def setPhase (m : Machine P) (id : Nat) (phase : Phase P) : Machine P :=
  { m with callers := m.callers.map fun c => if c.id = id then { c with phase } else c }

/-- Whether a caller waits for a condition. -/
def waitsOn [DecidableEq P.Cond] (on : P.Cond) (c : Caller P) : Bool :=
  match c.phase with
  | .waiting on' => on' = on
  | _ => false

/-- Lets every caller that waits for a condition try again. -/
def wakeAll [DecidableEq P.Cond] (m : Machine P) (on : P.Cond) : Machine P :=
  { m with callers := m.callers.map fun c =>
      if waitsOn on c then { c with phase := .entering } else c }

/-- A caller that has the lock tries: it is done and leaves, or waits, unless it has waited for too
long. -/
def enter (m : Machine P) (c : Caller P) : Machine P :=
  match P.attempt c.call m.state with
  | .blocked on =>
    if c.deadline.isExpired m.clock then m.setPhase c.id (.finished (P.giveUp c.call))
    else m.setPhase c.id (.waiting on)
  | .done state reply .nobody => { m with state }.setPhase c.id (.finished reply)
  | .done state reply signal => { m with state }.setPhase c.id (.signalling signal reply)

/-- The machine after a step, if it can take it. -/
def step [DecidableEq P.Cond] (m : Machine P) : Label P → Option (Machine P)
  | .arrive call deadline =>
    some { m with
      callers := m.callers ++ [⟨m.nextId, call, deadline, .entering⟩]
      nextId := m.nextId + 1 }
  | .enter id => do
    let c ← m.find? id
    match c.phase with
    | .entering => some (m.enter c)
    | _ => none
  | .wake id => do
    let c ← m.find? id
    match c.phase with
    | .waiting _ => some (m.setPhase id .entering)
    | _ => none
  | .signal id woken => do
    let c ← m.find? id
    match c.phase with
    | .signalling .nobody reply => some (m.setPhase id (.finished reply))
    | .signalling (.all on) reply => some ((m.wakeAll on).setPhase id (.finished reply))
    | .signalling (.one on) reply =>
      let m' := m.setPhase id (.finished reply)
      match woken with
      | none => if m.callers.any (waitsOn on) then none else some m'
      | some w => do
        let waiter ← m.find? w
        if waitsOn on waiter then some (m'.setPhase w .entering) else none
    | _ => none
  | .pass ms => some { m with clock := m.clock.pass ms }
  | .cancel token => some { m with clock := m.clock.cancel token }

/-! ## The run in order of arrival -/

/-- The step of the first caller that can take one. -/
def nextLabel [DecidableEq P.Cond] (m : Machine P) : Option (Label P) :=
  m.callers.findSome? fun c =>
    match c.phase with
    | .entering => some (.enter c.id)
    | .signalling (.one on) _ => some (.signal c.id ((m.callers.find? (waitsOn on)).map (·.id)))
    | .signalling _ _ => some (.signal c.id none)
    | .waiting _ => if c.deadline.isExpired m.clock then some (.wake c.id) else none
    | .finished _ => none

/-- Takes the steps that can be taken, one after the other. -/
def runSteps [DecidableEq P.Cond] : Nat → Machine P → Machine P
  | 0, m => m
  | fuel + 1, m =>
    match m.nextLabel.bind m.step with
    | some m' => runSteps fuel m'
    | none => m

/-- Takes steps until nobody can move.  Every caller finishes at most once, and each that does wakes
at most all others once, which bounds the number of steps. -/
def settle [DecidableEq P.Cond] (m : Machine P) : Machine P :=
  runSteps (4 * (m.callers.length + 1) * (m.callers.length + 1)) m

/-- The next instant at which the deadline of a waiting caller passes. -/
def nextExpiry? (m : Machine P) : Option Nat :=
  m.callers.foldl (fun e c =>
    match c.phase with
    | .waiting _ => Deadline.earlier e (c.deadline.expiry? m.clock)
    | _ => e) none

/-- The reply of a caller, if it has one. -/
def reply? (m : Machine P) (id : Nat) : Option P.Reply :=
  m.find? id >>= fun c => match c.phase with | .finished reply => some reply | _ => none

/-- The reply to a caller, who is then forgotten, if there is one yet. -/
def take (m : Machine P) (id : Nat) : Option P.Reply × Machine P :=
  match m.reply? id with
  | some reply => (some reply, { m with callers := m.callers.filter (·.id ≠ id) })
  | none => (none, m)

/-- Lets time pass, from one expiry to the next, until a caller has its reply. -/
def awaitWithin [DecidableEq P.Cond] (id : Nat) : Nat → Machine P → Option P.Reply × Machine P
  | 0, m => m.take id
  | fuel + 1, m =>
    match m.take id, m.nextExpiry? with
    | (none, m), some instant =>
      awaitWithin id fuel { m with clock := m.clock.advanceTo instant }.settle
    | found, _ => found

/-- Lets time pass until a caller has its reply, and forgets the caller; `none` if it waits for
ever. -/
def await [DecidableEq P.Cond] (m : Machine P) (id : Nat) : Option P.Reply × Machine P :=
  awaitWithin id (m.callers.length + 2) m.settle

/-- Starts a call, which goes on as far as it can. -/
def start [DecidableEq P.Cond] (m : Machine P) (call : P.Call) (deadline : Deadline) :
    Nat × Machine P :=
  (m.nextId, ((m.step (.arrive call deadline)).getD m).settle)

/-- Makes a call and waits for its reply. -/
def call [DecidableEq P.Cond] (m : Machine P) (call : P.Call) (deadline : Deadline) :
    Option P.Reply × Machine P :=
  let (id, m) := m.start call deadline
  m.await id

end Machine

end ScriptHost.Monitor
