import ScriptHost.Bus.Basic
/-!
# Using a bus

A script refers to its listeners and subscribers by names of its own choice.  What a listener does
when it is called is a *reaction*: a program that writes entries to a log and makes calls on the
bus, each of which may depend on the replies to those before.  A call that emits runs the reactions
of other listeners before it replies, so a thread keeps a stack of the emits that it has under way.

`Session.step` is one step of one thread, in which it does at most one thing to the bus; a thread
that has to wait can take none.  `Session.run` is the run of a script that is alone, except that it
may leave calls behind that wait for an event in the background.
-/

set_option autoImplicit false

namespace ScriptHost.Bus

/-- What a call on a bus replies. -/
inductive Reply (α : Type) where
  | done
  | flag (b : Bool)
  | count (n : Nat)
  | topic (t : String)
  | event (e : Option α)
  | delivery (d : Delivery)
  | info (closed : Bool) (dropped pending : Nat) (topics : List String)

mutual

/-- A program that a listener runs; it leaves entries `ε` in the log. -/
inductive Reaction (α ε : Type) where
  | done
  | note (entry : ε) (next : Reaction α ε)
  | call (c : Call α ε) (next : Reply α → Reaction α ε)

/-- The calls on a bus.  A callback also gets the number of calls that its listener has had
before. -/
inductive Call (α ε : Type) where
  | on (name topic : String) (callback : Nat → α → Reaction α ε)
  | cancel (name : String)
  | isCancelled (name : String)
  | topicOf (name : String)
  | dropHandle (name : String)
  | emit (topic : String) (event : α)
  | subscribe (name : String) (topics : List String)
  /-- Gives a subscriber another name, under which it lives on. -/
  | share (name other : String)
  /-- Takes an event, waiting for one if there is none. -/
  | next (name : String) (timeout : Int) (cancelled : Bool)
  | tryNext (name : String)
  | close (name : String)
  | inboxInfo (name : String)
  | dropSubscriber (name : String)
  | listenerCount (topic : String)
  | subscriberCount
  | capacity
  | dropBus
  /-- Waits for an event in the background. -/
  | nextLater (task name : String) (timeout : Int)
  | join (task : String)

end

instance {α ε : Type} : Inhabited (Call α ε) := ⟨.capacity⟩

instance {α ε : Type} : Inhabited (Reaction α ε) := ⟨.done⟩

/-- What a listener runs when it is called, given how often it has been called before and the
event. -/
abbrev Callback (α ε : Type) := Nat → α → Reaction α ε

/-- A call that waits in the background. -/
structure Waiter (α : Type) where
  inbox : Nat
  deadline : Deadline
  result : Option (Option α) := none

/-- An emit under way.  It serves the inboxes that it has found when it started, one after the
other, and then gives the listeners that it has found their turns. -/
structure Frame (α ε : Type) where
  /-- Emits are numbered in the order in which they start. -/
  number : Nat
  event : α
  /-- The inboxes that it keeps alive until it returns. -/
  audience : List Nat
  /-- The inboxes that it has still to serve. -/
  targets : List Nat := audience
  /-- The listeners that have still to have their turns. -/
  rest : List Nat
  /-- The listener whose callback it is in. -/
  calling : Option Nat := none
  delivery : Delivery := {}
  /-- What gets its delivery. -/
  next : Reply α → Reaction α ε

/-- What a call that may have to wait does as soon as it can. -/
inductive Request where
  /-- Takes an event from an inbox. -/
  | take (inbox : Nat) (deadline : Deadline)
  /-- Takes a listener that has been switched off out of the registrations. -/
  | unregister (listener : Nat)
  /-- Takes the result of a call in the background. -/
  | join (task : String)

/-- What a thread does next: it runs a program, or waits until a request can be answered. -/
inductive Control (α ε : Type) where
  | run (r : Reaction α ε)
  | wait (q : Request) (next : Reply α → Reaction α ε)

/-- A thread: what it does next, and the emits that it has under way, the innermost first. -/
structure Thread (α ε : Type) where
  control : Control α ε := .run .done
  stack : List (Frame α ε) := []

/-- A bus that is used by names, with what has been left behind in the background and written to the
log. -/
structure Session (α ε : Type) where
  bus : State α (Callback α ε)
  clock : Clock := {}
  handles : Record Nat := []
  subscribers : Record Nat := []
  waiters : Record (Waiter α) := []
  log : List ε := []
  /-- How many emits have been started. -/
  emits : Nat := 0

namespace Session

variable {α ε : Type}

/-! ## Waiting in the background -/

/-- Whether a waiting call can be answered now. -/
def Waiter.isReady (s : Session α ε) (w : Waiter α) : Bool :=
  w.result.isNone && (!s.bus.mustWait w.inbox || w.deadline.isExpired s.clock)

/-- Answers a waiting call, if it can be answered. -/
def answer? (s : Session α ε) (task : String) : Option (Session α ε) :=
  match Record.get? s.waiters task with
  | none => none
  | some w =>
    if Waiter.isReady s w then
      let (event, bus) := s.bus.take w.inbox
      some { s with
        bus := bus.disown w.inbox
        waiters := Record.insert task { w with result := some event } s.waiters }
    else none

/-- Answers the waiting calls that can be answered, in order. -/
def serve (s : Session α ε) : Session α ε :=
  s.waiters.foldl (fun s (task, _) => (s.answer? task).getD s) s

/-- Lets time pass until an instant; calls in the background that time out on the way do so in
order. -/
def passTo (s : Session α ε) (instant : Nat) : Session α ε :=
  { s with clock := s.clock.advanceTo instant }.serve

/-! ## Calls -/

/-- Goes on with the listener behind a name; without one nothing happens. -/
def withHandle (s : Session α ε) (name : String) (f : Nat → Reply α × Session α ε) :
    Reply α × Session α ε :=
  match Record.get? s.handles name with
  | some id => f id
  | none => (.done, s)

/-- Goes on with the inbox behind a name; without one nothing happens. -/
def withInbox (s : Session α ε) (name : String) (f : Nat → Reply α × Session α ε) :
    Reply α × Session α ε :=
  match Record.get? s.subscribers name with
  | some id => f id
  | none => (.done, s)

/-- Gives up the inbox behind a name, and the name with it. -/
def dropSubscriber (s : Session α ε) (name : String) : Session α ε :=
  match Record.get? s.subscribers name with
  | some id => { s with bus := s.bus.disown id, subscribers := Record.erase name s.subscribers }
  | none => s

/-- The first half of a call that may have to wait: what it is going to do then, and what it does at
once. -/
def request? (s : Session α ε) : Call α ε → Option (Request × Session α ε)
  | .next name timeout cancelled =>
    (Record.get? s.subscribers name).map fun id => (.take id (.ofCall s.clock timeout cancelled), s)
  | .cancel name =>
    (Record.get? s.handles name).map fun id =>
      (.unregister id, { s with bus := s.bus.deactivate id })
  | .join task => some (.join task, s)
  | _ => none

/-- The other half, if it need not wait any longer. -/
def reply? (s : Session α ε) (thread : Nat) : Request → Option (Reply α × Session α ε)
  | .take id d =>
    if !s.bus.mustWait id then
      let (event, bus) := s.bus.take id
      some (.event event, { s with bus })
    else if d.isExpired s.clock then some (.event none, s)
    else none
  | .unregister id =>
    if s.bus.isCalledElsewhere thread id then none
    else some (.done, { s with bus := s.bus.unregister id })
  | .join task =>
    match Record.get? s.waiters task with
    | none => some (.done, s)
    | some w =>
      w.result.map fun event => (.event event, { s with waiters := Record.erase task s.waiters })

/-- The calls that return at once. -/
def perform (s : Session α ε) : Call α ε → Reply α × Session α ε
  | .on name topic callback =>
    let (id, bus) := s.bus.on topic callback
    (.done, { s with bus, handles := Record.insert name id s.handles })
  | .isCancelled name => s.withHandle name fun id =>
    (.flag (match s.bus.listener? id with | some l => !l.active | none => false), s)
  | .topicOf name => s.withHandle name fun id =>
    (match s.bus.listener? id with | some l => .topic l.topic | none => .done, s)
  | .dropHandle name => (.done, { s with handles := Record.erase name s.handles })
  | .subscribe name topics =>
    let s := s.dropSubscriber name
    let (id, bus) := s.bus.subscribe topics
    (.done, { s with bus, subscribers := Record.insert name id s.subscribers })
  | .share name other => s.withInbox name fun id =>
    let s := { s with bus := s.bus.own id }.dropSubscriber other
    (.done, { s with subscribers := Record.insert other id s.subscribers })
  | .tryNext name => s.withInbox name fun id =>
    let (event, bus) := s.bus.take id
    (.event event, { s with bus })
  | .close name =>
    s.withInbox name fun id => (.done, { s with bus := s.bus.modifyInbox id Inbox.close })
  | .inboxInfo name => s.withInbox name fun id =>
    (match s.bus.inbox? id with
      | some i => .info i.closed i.dropped i.events.length i.topics
      | none => .done, s)
  | .dropSubscriber name => (.done, s.dropSubscriber name)
  | .listenerCount topic => (.count (s.bus.listenerCount topic), s)
  | .subscriberCount => (.count s.bus.subscriberCount, s)
  | .capacity => (.count s.bus.capacity, s)
  | .dropBus => (.done, { s with bus := { s.bus with alive := false } })
  | .nextLater task name timeout => s.withInbox name fun id =>
    (.done, { s with
      bus := s.bus.own id
      waiters := Record.insert task
        { inbox := id, deadline := Deadline.ofTimeout s.clock timeout } s.waiters })
  | .emit .. | .next .. | .cancel _ | .join _ => (.done, s)

/-! ## Emitting -/

/-- Starts an emit: it finds its inboxes and listeners at once, and keeps the inboxes alive. -/
def startEmit (s : Session α ε) (topic : String) (event : α) (next : Reply α → Reaction α ε) :
    Frame α ε × Session α ε :=
  let audience := s.bus.audience topic
  let rest := (s.bus.registeredOn topic).map (·.id)
  ({ number := s.emits, event, audience, rest, next },
    { s with bus := audience.foldl State.own s.bus, emits := s.emits + 1 })

/-- The innermost emit of a thread goes on: it serves its next inbox, comes back from a callback,
gives the next listener its turn, which calls it if it is still active, or returns. -/
def resume (s : Session α ε) (thread : Nat) (frame : Frame α ε) (outer : List (Frame α ε)) :
    Thread α ε × Session α ε :=
  match frame.targets, frame.calling, frame.rest with
  | id :: targets, _, _ =>
    let (receipt, bus) := s.bus.offer id frame.event
    ({ stack := { frame with targets, delivery := frame.delivery + receipt } :: outer },
      { s with bus })
  | [], some id, _ =>
    let delivery := frame.delivery + { listeners := 1 }
    ({ stack := { frame with calling := none, delivery } :: outer },
      { s with bus := s.bus.leave thread id })
  | [], none, id :: rest =>
    match s.bus.listener? id with
    | some l =>
      if l.active then
        ({  control := .run (l.callback l.calls frame.event)
            stack := { frame with rest, calling := some id } :: outer },
          { s with bus := s.bus.enter thread id })
      else ({ stack := { frame with rest } :: outer }, s)
    | none => ({ stack := { frame with rest } :: outer }, s)
  | [], none, [] =>
    ({ control := .run (frame.next (.delivery frame.delivery)), stack := outer },
      { s with bus := frame.audience.foldl State.disown s.bus })

/-! ## Threads -/

/-- One step of a thread; `none` if it has to wait, or has come to its end. -/
def step (s : Session α ε) (thread : Nat) (t : Thread α ε) : Option (Thread α ε × Session α ε) :=
  match t.control with
  | .run .done =>
    match t.stack with
    | [] => none
    | frame :: outer => some (s.resume thread frame outer)
  | .run (.note entry next) =>
    some ({ t with control := .run next }, { s with log := s.log ++ [entry] })
  | .run (.call (.emit topic event) next) =>
    let (frame, s) := s.startEmit topic event next
    some ({ stack := frame :: t.stack }, s)
  | .run (.call c next) =>
    match s.request? c with
    | some (q, s) => some ({ t with control := .wait q next }, s)
    | none =>
      let (reply, s) := s.perform c
      some ({ t with control := .run (next reply) }, s)
  | .wait q next =>
    (s.reply? thread q).map fun (reply, s) => ({ t with control := .run (next reply) }, s)

/-- The instant until which a thread that waits can wait at most. -/
def patience? (s : Session α ε) (t : Thread α ε) : Option Nat :=
  match t.control with
  | .wait (.take _ d) _ => d.expiry? s.clock
  | .wait (.join task) _ => (Record.get? s.waiters task).bind fun w => w.deadline.expiry? s.clock
  | _ => none

/-- Runs a thread that is alone to its end, for at most `fuel` steps.  The calls in the background
are answered as soon as they can be, and time passes only while the thread waits. -/
def run : Nat → Thread α ε → Session α ε → Session α ε
  | 0, _, s => s
  | fuel + 1, t, s =>
    match s.step 0 t with
    | some (t, s) => run fuel t s.serve
    | none =>
      match s.patience? t with
      | some instant => run fuel t (s.passTo instant)
      | none => s

end Session

end ScriptHost.Bus
