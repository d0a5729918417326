import ScriptHost.Deadline
import ScriptHost.Record
/-!
# Event buses

An event that is emitted on a topic goes to two kinds of receivers.  A *subscriber* has an inbox of
bounded size from which it takes events when it likes; a full inbox loses its oldest event.  A
*listener* is called with the event, in the order of registration, while `emit` has not returned
yet, and may use the bus itself, emit included.

A listener that is cancelled is not called again, not even by an emit that had already collected it.
Cancelling has two parts: the listener is switched off at once, and it is taken out of the
registrations when no other thread is inside its callback any more.

This module holds the state of a bus and what can be done to it in one piece.  Each of these
operations is guarded by one lock, so threads that use a bus at once do them one after the other, in
any order.
-/

set_option autoImplicit false

namespace ScriptHost.Bus

/-- The receivers that an emit has reached, and the events that were lost to make room. -/
structure Delivery where
  listeners : Nat := 0
  subscribers : Nat := 0
  dropped : Nat := 0
deriving DecidableEq, Repr

instance : Add Delivery where
  add a b := ⟨a.listeners + b.listeners, a.subscribers + b.subscribers, a.dropped + b.dropped⟩

/-- The inbox of a subscriber; `owners` counts those who can still take events from it. -/
structure Inbox (α : Type) where
  id : Nat
  topics : List String
  events : List α := []
  closed : Bool := false
  dropped : Nat := 0
  owners : Nat := 1

/-- A registration; `calls` counts the calls that have been started, and `callers` are the threads
that are inside one. -/
structure Listener (β : Type) where
  id : Nat
  topic : String
  callback : β
  active : Bool := true
  registered : Bool := true
  calls : Nat := 0
  callers : List Nat := []

/-- A bus whose events are values of `α` and whose listeners call back `β`.  Inboxes and listeners
stand in the order in which they came, and keep their identity for ever. -/
structure State (α β : Type) where
  /-- How many events an inbox holds. -/
  capacity : Nat
  capacity_pos : 0 < capacity
  nextId : Nat := 1
  inboxes : List (Inbox α) := []
  listeners : List (Listener β) := []
  /-- Whether anybody still has the bus; handles and inboxes outlive it. -/
  alive : Bool := true

variable {α β : Type}

namespace Inbox

/-- Puts an event in; a full inbox loses its oldest one. -/
def offer (capacity : Nat) (event : α) (i : Inbox α) : Inbox α :=
  if i.closed then i
  else if capacity ≤ i.events.length then
    { i with events := i.events.drop 1 ++ [event], dropped := i.dropped + 1 }
  else { i with events := i.events ++ [event] }

/-- Whether another event makes the inbox lose its oldest one. -/
def losesOn (capacity : Nat) (i : Inbox α) : Bool := !i.closed && capacity ≤ i.events.length

/-- What an emit counts for an inbox that it offers its event to. -/
def receipt (capacity : Nat) (i : Inbox α) : Delivery :=
  { subscribers := (!i.closed).toNat, dropped := (i.losesOn capacity).toNat }

/-- The inbox after it has been closed, which empties it for good. -/
def close (i : Inbox α) : Inbox α := { i with closed := true, events := [] }

/-- Whether an event on a topic is for the inbox: somebody owns it, and it is on the topic. -/
def wants (topic : String) (i : Inbox α) : Bool := i.owners ≠ 0 && i.topics.contains topic

end Inbox

namespace State

/-- A bus; an inbox holds at least one event. -/
def new (capacity : Nat) : State α β := { capacity := max capacity 1, capacity_pos := by omega }

/-! ## Subscribers -/

/-- Adds an inbox with one owner.  A topic that is named several times counts once. -/
def subscribe (s : State α β) (topics : List String) : Nat × State α β :=
  let topics := Record.names (Record.ofList (topics.map fun t => (t, ())))
  (s.nextId, { s with
    inboxes := s.inboxes ++ [{ id := s.nextId, topics }]
    nextId := s.nextId + 1 })

/-- The inbox with a number. -/
def inbox? (s : State α β) (id : Nat) : Option (Inbox α) := s.inboxes.find? (·.id = id)

/-- Changes the inbox with a number, if there is one. -/
def modifyInbox (s : State α β) (id : Nat) (f : Inbox α → Inbox α) : State α β :=
  { s with inboxes := s.inboxes.map fun i => if i.id = id then f i else i }

/-- Takes the oldest event of an inbox, if it has one. -/
def take (s : State α β) (id : Nat) : Option α × State α β :=
  match (s.inbox? id).bind (·.events.head?) with
  | none => (none, s)
  | some event => (some event, s.modifyInbox id fun i => { i with events := i.events.drop 1 })

/-- Whether a call that waits for an event of an inbox has to go on waiting. -/
def mustWait (s : State α β) (id : Nat) : Bool :=
  match s.inbox? id with
  | some i => i.events.isEmpty && !i.closed
  | none => false

/-- One more owner for an inbox. -/
def own (s : State α β) (id : Nat) : State α β :=
  s.modifyInbox id fun i => { i with owners := i.owners + 1 }

/-- One owner less; an inbox without an owner stays, but gets no events any more. -/
def disown (s : State α β) (id : Nat) : State α β :=
  s.modifyInbox id fun i => { i with owners := i.owners - 1 }

/-- How many inboxes are open and owned by somebody. -/
def subscriberCount (s : State α β) : Nat :=
  (s.inboxes.filter fun i => i.owners ≠ 0 && !i.closed).length

/-! ## Listeners -/

/-- Registers a listener, behind all others. -/
def on (s : State α β) (topic : String) (callback : β) : Nat × State α β :=
  (s.nextId, { s with
    listeners := s.listeners ++ [{ id := s.nextId, topic, callback }]
    nextId := s.nextId + 1 })

/-- The listener with a number, registered or not. -/
def listener? (s : State α β) (id : Nat) : Option (Listener β) := s.listeners.find? (·.id = id)

/-- Changes the listener with a number, if there is one. -/
def modifyListener (s : State α β) (id : Nat) (f : Listener β → Listener β) : State α β :=
  { s with listeners := s.listeners.map fun l => if l.id = id then f l else l }

/-- No call of the listener starts from now on. -/
def deactivate (s : State α β) (id : Nat) : State α β :=
  s.modifyListener id fun l => { l with active := false }

/-- Takes a listener out of the registrations; a bus that nobody has any more keeps them. -/
def unregister (s : State α β) (id : Nat) : State α β :=
  s.modifyListener id fun l => { l with registered := l.registered && !s.alive }

/-- Whether a thread other than this one is inside the callback of a listener. -/
def isCalledElsewhere (s : State α β) (thread id : Nat) : Bool :=
  (s.listener? id).any fun l => l.callers.any (· ≠ thread)

/-- A thread goes into the callback of a listener. -/
def enter (s : State α β) (thread id : Nat) : State α β :=
  s.modifyListener id fun l => { l with calls := l.calls + 1, callers := l.callers ++ [thread] }

/-- A thread comes back from the callback of a listener. -/
def leave (s : State α β) (thread id : Nat) : State α β :=
  s.modifyListener id fun l => { l with callers := l.callers.erase thread }

/-- The listeners on a topic, in the order of their registration. -/
def registeredOn (s : State α β) (topic : String) : List (Listener β) :=
  s.listeners.filter fun l => l.registered && l.topic = topic

/-- How many listeners are registered on a topic, those that are switched off included. -/
def listenerCount (s : State α β) (topic : String) : Nat := (s.registeredOn topic).length

/-! ## Emitting -/

/-- Offers an event to one inbox, and says how that is to be counted. -/
def offer (s : State α β) (id : Nat) (event : α) : Delivery × State α β :=
  (((s.inbox? id).map (·.receipt s.capacity)).getD {}, s.modifyInbox id (·.offer s.capacity event))

/-- The inboxes that an emit is going to serve. -/
def audience (s : State α β) (topic : String) : List Nat :=
  (s.inboxes.filter (·.wants topic)).map (·.id)

end State

end ScriptHost.Bus
