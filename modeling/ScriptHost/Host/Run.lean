import ScriptHost.Host.Basic
/-!
# Running a host

`Host.step` leaves open which step comes next.  Here the steps are chosen in the order of arrival,
and time passes only when nobody can move, or while a worker writes a response, which takes as long
as its pace says.  Workers go on by themselves, and one that is done takes the first invocation in
line.  All else, from getting an invocation in line to the verdict on it, happens while a caller
awaits something of the host.
-/

set_option autoImplicit false

namespace ScriptHost

/-- Why the host gives no invocation. -/
inductive HostFault where
  | route (f : RouteFault)
  | failure (f : Failure)

/-- How many milliseconds a worker takes to write the response for what a handler has returned. -/
abbrev Pace := Outcome Value → Nat

/-- A request that comes to no invocation: the reason, and what the client has been sent. -/
structure Refusal where
  fault : HostFault
  sent : Bytes := []

namespace Host

variable {R : Regex} {ε : Type}

/-! ## Order of arrival -/

/-- The steps that may be possible, in the order of preference: time runs out for an invocation only
when nobody else can move. -/
def labels (h : Host R ε) (awaited : Bool) : List Label :=
  let ids := h.invocations.map (·.id)
  let own (id : Nat) : List Label := [.answer id, .judge id, .act id, .assign id]
  let caller (id : Nat) : List Label := [.conclude id, .enqueue id, .start id]
  if awaited then ids.flatMap (fun id => own id ++ caller id) ++ ids.map .expire
  else ids.flatMap own

/-- How long the worker of an invocation that has been judged takes until it can send the
response. -/
def writingMs (pace : Pace) (h : Host R ε) (id : Nat) : Nat :=
  match h.find? id with
  | some i =>
    match i.work with
    | .judged r false =>
      if i.exchange.context.phase.isTerminal || i.exchange.context.returnless then 0 else pace r
    | _ => 0
  | none => 0

variable (pace : Pace)

/-- The host after a step, and after the time that its worker needs before the next one. -/
def stepOn (h : Host R ε) (label : Label) : Option (Host R ε) := do
  let h' ← h.step label
  match label with
  | .judge id => h'.step (.pass (h'.writingMs pace id))
  | _ => some h'

/-- The host after the first step that can be taken. -/
def advance? (h : Host R ε) (awaited : Bool) : Option (Host R ε) :=
  (h.labels awaited).findSome? (h.stepOn pace)

/-- Takes steps until nobody can move, or all fuel has been used. -/
def settleWithin (awaited : Bool) : Nat → Host R ε → Host R ε
  | 0, h => h
  | fuel + 1, h =>
    match h.advance? pace awaited with
    | some h => settleWithin awaited fuel h
    | none => h

/-- More steps than any handlers take that come to an end. -/
def runFuel : Nat := 1000000

/-- Takes steps until nobody can move. -/
def settle (h : Host R ε) (awaited : Bool) : Host R ε := settleWithin pace awaited runFuel h

/-! ## Time -/

/-- The instants at which an invocation can move by itself. -/
def instants (h : Host R ε) (awaited : Bool) (i : Invocation ε) : List Nat :=
  (match i.verdict, i.timer with
    | none, some instant => if awaited then [instant] else []
    | _, _ => []) ++
  match i.work with
  | .calling c since _ => [(h.callSince i c since).2.1.now]
  | .waiting _ d _ => (d.expiry? h.clock).toList
  | .sleeping instant _ => [instant]
  | _ => []

/-- The next instant at which something happens by itself. -/
def nextInstant? (h : Host R ε) (awaited : Bool) : Option Nat :=
  ((h.invocations.flatMap (h.instants awaited)).filter (h.clock.now < ·)).min?

/-- Takes steps, and lets time pass where nobody can move, until something holds, nothing can happen
before the limit any more, or all fuel has been used. -/
def runWithin (awaited : Bool) (limit : Option Nat) (isDone : Host R ε → Bool) :
    Nat → Host R ε → Host R ε
  | 0, h => h
  | fuel + 1, h =>
    let h := h.settle pace awaited
    if isDone h then h
    else
      match Deadline.earlier (h.nextInstant? awaited) (limit.filter (h.clock.now < ·)) with
      | some instant =>
        runWithin awaited limit isDone fuel (h.setClock (h.clock.advanceTo instant))
      | none => h

/-- Runs the host until something holds, the limit is reached, or nothing can happen any more. -/
def runUntil (h : Host R ε) (awaited : Bool) (limit : Option Nat) (isDone : Host R ε → Bool) :
    Host R ε :=
  runWithin pace awaited limit (fun h => isDone h || limit.any (· ≤ h.clock.now)) runFuel h

/-- Whether something holds of an invocation. -/
def holds (id : Nat) (p : Invocation ε → Bool) (h : Host R ε) : Bool := (h.find? id).any p

/-- Awaits the verdict on an invocation, and then the end of its work. -/
def await (h : Host R ε) (id : Nat) : Host R ε :=
  let h := h.runUntil pace true none (holds id (·.verdict.isSome))
  h.runUntil pace false none (holds id (·.isOver))

/-- Awaits the start of an invocation. -/
def awaitStart (h : Host R ε) (id : Nat) : Host R ε :=
  h.runUntil pace true none (holds id (·.state ≠ .queued))

/-- Lets all workers finish. -/
def finish (h : Host R ε) : Host R ε :=
  h.runUntil pace false none fun h => h.invocations.all (!·.isBusy)

/-- The caller cancels an invocation, and whoever waits for it stops waiting. -/
def withdraw (h : Host R ε) (id : Nat) : Host R ε :=
  ((h.step (.cancel id)).getD h).settle pace false

/-- Uses a capability from outside, while the workers go on; `none` if there never is a reply. -/
def use (h : Host R ε) (c : Capability) (u : Use ε) (d : Deadline) :
    Option (Outcome (UseReply ε)) × Host R ε :=
  match h.registry.start c u d with
  | (.inl (.returned reply), registry) => (some reply, { h with registry })
  | (.inl .panicked, registry) => (none, { h with registry })
  | (.inr w, registry) =>
    let h := { h with registry }.runUntil pace false (d.expiry? h.clock) fun h =>
      (h.registry.poll w).1.isSome
    let (reply, registry) := h.registry.poll w
    (reply, { h with registry })

/-- Puts something into a pipe, or takes it out, from outside. -/
def usePipe (h : Host R ε) (name : String) (c : Queue.Call Value) (limit : Clock → Deadline) :
    Option (Outcome (UseReply ε)) × Host R ε :=
  match h.registry.pipe name with
  | (.ok pipe, registry) => { h with registry }.use pace pipe (.queue c) (limit h.clock)
  | (.error e, registry) => (some (.error e), { h with registry })

/-- Gives back the locks that an invocation holds.  A host does so only when it is told to. -/
def releaseLocks (h : Host R ε) (i : Invocation ε) : List String × Host R ε :=
  let (names, registry) := h.registry.releaseLocks i.holder
  (names, { h with registry })

/-- What handlers have noted, by route. -/
def notes (h : Host R ε) : Record (List ε) :=
  h.log.foldl (fun notes (route, entry) =>
    Record.insert route ((Record.get? notes route).getD [] ++ [entry]) notes) []

/-! ## Requests -/

/-- A context for a new request, with an identity and a token of its own. -/
def newContext (h : Host R ε) (head : Head) : Context × Host R ε :=
  let n := h.requests + 1
  (Context.new h.clock head h.config.serviceTimeoutMs ⟨n⟩ ⟨n⟩, { h with requests := n })

/-- Queues an invocation of the handler of a route, if there is one. -/
def submit (h : Host R ε) (route : String) (head : Head) (transport : Transport) :
    Except RouteFault (Nat × Host R ε) :=
  match Record.get? h.handlers route with
  | none => .error (.notFound route)
  | some handler =>
    let (context, h) := h.newContext head
    let i : Invocation ε :=
      { id := h.requests, route, handler
        exchange := { context, wire := { clock := h.clock, transport } } }
    .ok (i.id, { h with invocations := h.invocations ++ [i] })

/-- The route of a request; all routes lie under one path. -/
def route (h : Host R ε) (head : Head) : Except RouteFault RouteMatch :=
  match h.config.routePrefix.toList.isPrefixOf? head.path.toList with
  | some path => h.router.route head.method (String.ofList path)
  | none => .error (.notFound head.path)

/-- Tells a client that its request has no route. -/
def refuse (h : Host R ε) (head : Head) (transport : Transport) (f : RouteFault) :
    Refusal × Host R ε :=
  let (context, h) := h.newContext head
  let (status, text) := match f with
    | .methodNotAllowed _ _ => (405, "Method not allowed")
    | _ => (404, "Not found")
  let (r, x) := Act.respond status "text/plain; charset=utf-8" (Utf8.encode text)
    { context, wire := { clock := h.clock, transport } }
  let fault := match r with
    | .ok () => .route f
    | .error e => .failure e
  ({ fault, sent := x.wire.transport.sent }, h.setClock x.wire.clock)

/-- Reads a request, which must arrive within the time for the service, and queues an invocation of
its route. -/
def accept (h : Host R ε) (transport : Transport) : Except Refusal Nat × Host R ε :=
  let d := if h.config.serviceTimeoutMs ≤ 0 then .never
    else .ofTimeout h.clock h.config.serviceTimeoutMs
  let (read, wire) := Head.read d { clock := h.clock, transport }
  let h := h.runUntil pace true (some wire.clock.now) fun _ => false
  match read with
  | .error e => (.error { fault := .failure e }, h)
  | .ok head =>
    match h.route head with
    | .error f =>
      let (refusal, h) := h.refuse head wire.transport f
      (.error refusal, h)
    | .ok m =>
      match h.submit m.name { head with pathVariables := m.captured } wire.transport with
      | .error f => (.error { fault := .route f }, h)
      | .ok (id, h) => (.ok id, h)

end Host

end ScriptHost
