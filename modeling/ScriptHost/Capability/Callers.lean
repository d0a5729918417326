import ScriptHost.Capability.Use

/-!
# Many callers of one registry

Scripts run at the same time and ask one registry for what they need.  A call for something that is
shared goes through its slot, in several steps between which others do theirs; whoever builds it
does so while holding the slot alone.  Meanwhile capabilities are used, what has been built is
counted, locks are given back and time passes.

`Callers.step` is this behaviour one step at a time, with the next step chosen from outside.
`Registry.resolve` is what a caller that is alone finds, and `Registry.obtain` its whole call.
-/

set_option autoImplicit false

namespace ScriptHost

/-- A registry and those who have asked it for something. -/
structure Callers (ε : Type) where
  registry : Registry ε
  /-- The calls for what is shared. -/
  calls : List (SlotCall CapabilityKey Capability) := []
  /-- The calls that count what is shared. -/
  censuses : List (Census CapabilityKey) := []
  /-- What the calls for what is shared ask for, in the order of their numbers. -/
  asked : List CapabilityConfig := []
  /-- What callers got who share it with nobody. -/
  unshared : List (CapabilityConfig × Outcome Capability) := []

namespace Callers

variable {ε : Type}

/-- Who does the next step, and what it is. -/
inductive Label (ε : Type) where
  | ask (c : CapabilityConfig)
  | find (id : Nat)
  | lock (id : Nat)
  | look (id : Nat)
  | build (id : Nat)
  /-- The build of caller `id` fails for a reason that lies outside of the registry. -/
  | fail (id : Nat) (e : Failure)
  | census (order : List CapabilityKey)
  | peek (id : Nat)
  | tally (id : Nat)
  | use (c : Capability) (u : Use ε) (d : Deadline)
  | poll (w : Waiting)
  | await (w : Waiting)
  | releaseLocks (h : Holder)
  | pass (ms : Nat)

/-- The slots of a registry and the calls that go through them. -/
def slots (s : Callers ε) : SlotCalls CapabilityKey Capability :=
  { table := s.registry.table, calls := s.calls, censuses := s.censuses }

/-- Puts back the slots and the calls that go through them. -/
def setSlots (s : Callers ε) (slots : SlotCalls CapabilityKey Capability) : Callers ε :=
  { s with
    registry := { s.registry with table := slots.table }
    calls := slots.calls
    censuses := slots.censuses }

/-- A step of a caller on its way through its slot. -/
def onSlots (s : Callers ε) (label : SlotCalls.Label CapabilityKey Capability) :
    Option (Callers ε) :=
  (s.slots.step label).map s.setSlots

/-- The state after a step, if it can be taken. -/
def step (s : Callers ε) : Label ε → Option (Callers ε)
  | .ask c =>
    match c.key? with
    | some key => { s with asked := s.asked ++ [c] }.onSlots (.arrive key)
    | none =>
      let (r, registry) := s.registry.build c
      some { s with registry, unshared := s.unshared ++ [(c, r)] }
  | .find id => s.onSlots (.find id)
  | .lock id => s.onSlots (.lock id)
  | .look id => s.onSlots (.look id)
  | .build id => do
    let c ← s.asked[id]?
    let (r, registry) := s.registry.build c
    { s with registry }.onSlots (.finish id r)
  | .fail id e => s.onSlots (.finish id (.error e))
  | .census order => s.onSlots (.census order)
  | .peek id => s.onSlots (.peek id)
  | .tally id => s.onSlots (.tally id)
  | .use c u d => some { s with registry := (s.registry.start c u d).2 }
  | .poll w => some { s with registry := (s.registry.poll w).2 }
  | .await w => some { s with registry := (s.registry.await w).2 }
  | .releaseLocks h => some { s with registry := (s.registry.releaseLocks h).2 }
  | .pass ms => some { s with registry := { s.registry with clock := s.registry.clock.pass ms } }

/-- Somebody has asked for something, and this is what there was or what came of building it. -/
def Answered (s : Callers ε) (c : CapabilityConfig) (r : Outcome Capability) : Prop :=
  (c, r) ∈ s.unshared ∨ ∃ call ∈ s.calls, s.asked[call.id]? = some c ∧ call.phase = .returned r

/-- Somebody has asked for something, and this is what the call has returned. -/
def Obtained (s : Callers ε) (c : CapabilityConfig) (r : Outcome Capability) : Prop :=
  ∃ found, s.Answered c found ∧ r = found.bind c.expect

end Callers

end ScriptHost
