import ScriptHost.Host.Config
import ScriptHost.Host.Invocation
import ScriptHost.Route.Router
/-!
# The host

A host has a fixed number of workers, a registry that all handlers share, and the invocations that
have been submitted.  `Host.step` is what can happen, one step at a time: an invocation gets in
line, gets a worker and starts, its handler does its next action, the worker looks at the deadline,
finishes the response and is free again, the verdict is given, the time for the service runs out,
the caller cancels, time passes.  The next step is chosen from outside; what holds after every
sequence of steps holds for every interleaving.
-/

set_option autoImplicit false

namespace ScriptHost

/-- The clock of the registry is the clock of the host. -/
structure Host (R : Regex) (ε : Type) where
  config : HostConfig
  router : Router R := {}
  handlers : Record (Handler ε) := []
  registry : Registry ε
  invocations : List (Invocation ε) := []
  /-- How many workers are free. -/
  free : Nat
  /-- How many requests have been seen; each has a token and an identity of its own. -/
  requests : Nat := 0
  /-- What handlers have noted, by route. -/
  log : List (String × ε) := []

namespace Host

variable {R : Regex} {ε : Type}

/-- The clock that all invocations go by. -/
def clock (h : Host R ε) : Clock := h.registry.clock

/-- The host at another instant. -/
def setClock (h : Host R ε) (clock : Clock) : Host R ε :=
  { h with registry := { h.registry with clock } }

/-- Zero workers count as one. -/
def workers (c : HostConfig) : Nat := max c.workers 1

/-- A host with its routes; a pattern that is no route is refused. -/
def ofConfig (config : HostConfig) (reachable : Database.Target → Bool) :
    Except RouteFault (Host R ε) := do
  let router ← config.routes.foldlM
    (fun (r : Router R) route => r.add route.name route.pattern route.method) {}
  let registry : Registry ε := { config := config.registry, reachable }
  return { config, router, registry, free := workers config }

/-- The limit of the service, if it has one. -/
def serviceTimeout? (h : Host R ε) : Option Nat :=
  if h.config.serviceTimeoutMs < 0 then none else some h.config.serviceTimeoutMs.toNat

/-- The invocation with a number. -/
def find? (h : Host R ε) (id : Nat) : Option (Invocation ε) := h.invocations.find? (·.id = id)

/-- Puts an invocation in the place of the one with its number. -/
def set (h : Host R ε) (i : Invocation ε) : Host R ε :=
  { h with invocations := h.invocations.map fun j => if j.id = i.id then i else j }

/-! ## Steps -/

/-- What can happen to a host. -/
inductive Label where
  /-- Invocation `id` gets in line. -/
  | enqueue (id : Nat)
  /-- It gets a worker. -/
  | assign (id : Nat)
  /-- It starts, unless it has been cancelled. -/
  | start (id : Nat)
  /-- Its handler does its next action. -/
  | act (id : Nat)
  /-- The worker looks at the deadline of a handler that has returned. -/
  | judge (id : Nat)
  /-- The worker finishes the response. -/
  | answer (id : Nat)
  | conclude (id : Nat)
  /-- The time for the service runs out. -/
  | expire (id : Nat)
  | cancel (id : Nat)
  | pass (ms : Nat)

/-- The invocation gets in line. -/
def enqueue (h : Host R ε) (i : Invocation ε) : Option (Host R ε) :=
  match i.work with
  | .queued => some (h.set { i with work := .inLine })
  | _ => none

/-- A free worker takes the invocation. -/
def assign (h : Host R ε) (i : Invocation ε) : Option (Host R ε) :=
  match i.work with
  | .inLine =>
    if h.free = 0 then none
    else some { h.set { i with work := .assigned } with free := h.free - 1 }
  | _ => none

/-- The work is over, and its worker free. -/
def release (h : Host R ε) (i : Invocation ε) (verdict : Bool → Verdict) : Host R ε :=
  { h.set { i with work := .over verdict } with free := h.free + 1 }

/-- The time of a request counts from its start. -/
def start (h : Host R ε) (i : Invocation ε) : Option (Host R ε) :=
  match i.work with
  | .assigned =>
    if h.clock.isCancelled i.token then
      let (_, _, i) := i.act h.clock Act.abort
      some (h.release (i.conclude .cancelledEarly) fun _ => .cancelledEarly)
    else
      let (_, _, i) := i.act h.clock (Act.resetTimeout h.config.serviceTimeoutMs)
      some (h.set { i with
        work := .handling i.handler, state := .running,
        timer := h.serviceTimeout?.map (h.clock.now + ·) })
  | _ => none

/-- A call on the request that was made at an instant, as far as is known now: its reply, and when
it is there. -/
def callSince (h : Host R ε) (i : Invocation ε) (c : Request.Call) (since : Nat) :
    Outcome Request.Reply × Clock × Invocation ε :=
  i.act { h.clock with now := since } (Request.act c)

/-- The next action of a handler, if it need not wait. -/
def act (h : Host R ε) (i : Invocation ε) : Option (Host R ε) :=
  match i.work with
  | .handling (.done r) => some (h.set { i with work := .returned r })
  | .handling .crash => some (h.release i fun _ => .crashed)
  | .handling (.note entry next) =>
    some { h.set { i with work := .handling next } with log := h.log ++ [(i.route, entry)] }
  | .handling (.context next) => some (h.set { i with work := .handling (next i.exchange.context) })
  | .handling (.request c next) => some (h.set { i with work := .calling c h.clock.now next })
  | .handling (.resolve kind config next) =>
    let (c, registry) := h.registry.resolveNamed kind config
    some ({ h with registry }.set { i with work := .handling (next c) })
  | .handling (.use c u ms next) =>
    let d := i.exchange.context.deadlineFor h.clock ms
    match h.registry.start c u d with
    | (.inl (.returned reply), registry) =>
      some ({ h with registry }.set { i with work := .handling (next reply) })
    | (.inl .panicked, registry) =>
      some ({ h with registry }.set { i with work := .handling .crash })
    | (.inr w, registry) => some ({ h with registry }.set { i with work := .waiting w d next })
  | .handling (.sleep ms next) => some (h.set { i with work := .sleeping (h.clock.now + ms) next })
  | .calling c since next =>
    let (reply, clock, i) := h.callSince i c since
    if clock.now ≤ h.clock.now then
      some ((h.setClock { clock with now := h.clock.now }).set
        { i with work := .handling (next reply) })
    else none
  | .waiting w _ next =>
    match h.registry.poll w with
    | (some reply, registry) =>
      some ({ h with registry }.set { i with work := .handling (next reply) })
    | (none, _) => none
  | .sleeping instant next =>
    if instant ≤ h.clock.now then some (h.set { i with work := .handling next }) else none
  | _ => none

/-- The worker looks at the deadline of a handler that has returned. -/
def judge (h : Host R ε) (i : Invocation ε) : Option (Host R ε) :=
  match i.work with
  | .returned r =>
    some (h.set { i with work := .judged r (i.exchange.context.deadline.isExpired h.clock) })
  | _ => none

/-- The worker finishes the response, gives its verdict and is free again. -/
def answer (h : Host R ε) (i : Invocation ε) : Option (Host R ε) :=
  match i.work with
  | .judged r expired =>
    let (_, clock, i) := i.act h.clock (Act.finishResponse i.clientCancelled r)
    some ((h.setClock { clock with now := max clock.now h.clock.now }).release i
      (Verdict.ofReturn r expired))
  | _ => none

/-- The verdict depends on whether the caller has cancelled by the time it is given. -/
def conclude (h : Host R ε) (i : Invocation ε) : Option (Host R ε) :=
  match i.verdict, i.work with
  | none, .over verdict => some (h.set (i.conclude (verdict i.clientCancelled)))
  | _, _ => none

/-- The verdict is given while the worker is still at work, which it is told to stop. -/
def expire (h : Host R ε) (i : Invocation ε) : Option (Host R ε) :=
  match i.verdict, i.timer with
  | none, some instant =>
    if instant ≤ h.clock.now then
      some ((h.set (i.conclude (.timeOut Verdict.serviceTimeout))).setClock
        (h.clock.cancel i.token))
    else none
  | _, _ => none

/-- The client of the invocation cancels it, and with it the token of its request. -/
def cancel (h : Host R ε) (i : Invocation ε) : Host R ε :=
  (h.set { i with clientCancelled := true }).setClock (h.clock.cancel i.token)

/-- The host after a step, if it can be taken. -/
def step (h : Host R ε) : Label → Option (Host R ε)
  | .enqueue id => h.find? id >>= h.enqueue
  | .assign id => h.find? id >>= h.assign
  | .start id => h.find? id >>= h.start
  | .act id => h.find? id >>= h.act
  | .judge id => h.find? id >>= h.judge
  | .answer id => h.find? id >>= h.answer
  | .conclude id => h.find? id >>= h.conclude
  | .expire id => h.find? id >>= h.expire
  | .cancel id => (h.find? id).map h.cancel
  | .pass ms => some (h.setClock (h.clock.pass ms))

end Host

end ScriptHost
