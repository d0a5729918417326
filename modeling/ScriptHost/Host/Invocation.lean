import ScriptHost.Host.Envelope
import ScriptHost.Host.Handler
/-!
# Invocations

An invocation is one run of a handler for one request.  Two things go on in it.  The *work* is done
by a worker: the handler runs, the deadline is looked at, and the response is finished.  The *state*
is what the caller sees; it follows the work, except that the time for the service can run out while
the work still goes on.
-/

set_option autoImplicit false

namespace ScriptHost

/-! ## What the caller sees -/

/-- What the caller sees of an invocation. -/
inductive InvocationState where
  | queued
  | running
  | completed
  | failed
  | timedOut
deriving DecidableEq, Repr, Inhabited

namespace InvocationState

/-- The name of a state. -/
def name : InvocationState → String
  | queued => "queued"
  | running => "running"
  | completed => "completed"
  | failed => "failed"
  | timedOut => "timed_out"

/-- Whether a state is for good. -/
def isFinished : InvocationState → Bool
  | queued | running => false
  | completed | failed | timedOut => true

end InvocationState

/-- What comes of an invocation. -/
structure Verdict where
  state : InvocationState
  value : Option Value := none
  error : Option Failure := none

namespace Verdict

/-- Whether the invocation has come to its end as it should. -/
def isSuccess (v : Verdict) : Bool := v.state = .completed

/-- The verdict on a failure. -/
def fail (e : Failure) : Verdict := { state := .failed, error := some e }

/-- What is reported when the time for the service runs out. -/
def serviceTimeout : Failure := .timeout "run service"

/-- The verdict when time has run out. -/
def timeOut (e : Failure) : Verdict := { state := .timedOut, error := some e }

/-- The verdict on a handler that has returned.  When the deadline had passed by then, it is the
caller's doing if the caller has cancelled, and otherwise the time has run out. -/
def ofReturn (r : Outcome Value) (expired clientCancelled : Bool) : Verdict :=
  match r, expired, clientCancelled with
  | .ok v, false, _ => { state := .completed, value := some v }
  | .error e, false, _ => fail e
  | .ok _, true, true => fail (.illegalState "invocation cancelled by client")
  | .error e, true, true => fail e
  | .ok _, true, false => timeOut serviceTimeout
  | .error e, true, false => timeOut (if e.isTimeout then e else serviceTimeout)

/-- The verdict on a handler that has panicked. -/
def crashed : Verdict := fail (.external "run handler" .unstated)

/-- The verdict on an invocation that has been cancelled before it has started. -/
def cancelledEarly : Verdict := fail (.illegalState "invocation cancelled before it started")

end Verdict

/-! ## The end of a response -/

namespace Act

/-- What the host does about the response when a handler has returned.  A passed deadline ends the
request without a word; a handler that has answered by itself is left alone; for any other the host
answers. -/
def finishResponse (clientCancelled : Bool) (r : Outcome Value) : Act Unit := do
  let c ← context
  let now ← clock
  if c.deadline.isExpired now then
    if clientCancelled then abort else markTimedOut
  else if c.phase.isTerminal then pure ()
  else if c.returnless then tryCatch complete fun _ => pure ()
  else
    let e := Envelope.ofReturn r
    tryCatch (respond e.status e.contentType e.body) fun _ => do
      if !(← context).phase.isTerminal then abort

end Act

/-! ## The work -/

/-- How far the work has come. -/
inductive Work (ε : Type) where
  | queued
  /-- It is in line for a worker. -/
  | inLine
  /-- A worker has it. -/
  | assigned
  | handling (h : Handler ε)
  /-- A call on the request was made at an instant, and may take time. -/
  | calling (c : Request.Call) (since : Nat) (next : Outcome Request.Reply → Handler ε)
  /-- The use of a capability waits, at most until its deadline. -/
  | waiting (w : Waiting) (d : Deadline) (next : Outcome (UseReply ε) → Handler ε)
  | sleeping (until_ : Nat) (next : Handler ε)
  | returned (r : Outcome Value)
  /-- The deadline has been looked at. -/
  | judged (r : Outcome Value) (expired : Bool)
  /-- The worker is free again. -/
  | over (verdict : Bool → Verdict)

/-- An invocation: what it has been called with, how far it has come and what the caller sees of
it. -/
structure Invocation (ε : Type) where
  id : Nat
  route : String
  handler : Handler ε
  exchange : Exchange
  work : Work ε := .queued
  state : InvocationState := .queued
  clientCancelled : Bool := false
  /-- When the time for the service runs out. -/
  timer : Option Nat := none
  verdict : Option Verdict := none

namespace Invocation

variable {ε : Type}

/-- The token of its request. -/
def token (i : Invocation ε) : Token := i.exchange.context.token

/-- The identity under which the handler holds locks. -/
def holder (i : Invocation ε) : Holder := i.exchange.context.holder

/-- The bytes that the client has been sent. -/
def sent (i : Invocation ε) : Bytes := i.exchange.wire.transport.sent

/-- Whether a worker is at work. -/
def isBusy (i : Invocation ε) : Bool :=
  match i.work with
  | .queued | .inLine | .over _ => false
  | _ => true

/-- Whether its worker has finished with it. -/
def isOver (i : Invocation ε) : Bool :=
  match i.work with
  | .over _ => true
  | _ => false

/-- Gives the verdict, which is the state from then on. -/
def conclude (i : Invocation ε) (v : Verdict) : Invocation ε :=
  { i with verdict := some v, state := v.state }

/-- Runs an action on the request at a time, and takes the clock as it is afterwards. -/
def act {α : Type} (i : Invocation ε) (clock : Clock) (a : Act α) :
    Outcome α × Clock × Invocation ε :=
  let (r, x) := a { i.exchange with wire := { i.exchange.wire with clock } }
  (r, x.wire.clock, { i with exchange := x })

end Invocation

end ScriptHost
