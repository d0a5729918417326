import ScriptHost.Failure

/-!
# Slots: what is built at most once

Callers that ask for the same thing share it, and the first one builds it.  A table has a slot for
every key that has been asked for.  A call finds its slot, which takes the lock of the table for a
moment, and then looks into it under the lock of the slot alone; whoever finds it empty keeps that
lock while building.  So a slow build holds up those that want the same thing and nobody else, and
one that fails leaves the slot empty for the next caller.

How much has been built is counted without waiting for anybody.  A census goes from slot to slot,
tries the lock of each, and passes over those whose lock somebody else holds.

`SlotCalls.step` is this behaviour one step at a time, with the next step chosen from outside.
-/

set_option autoImplicit false

namespace ScriptHost

/-- Who can hold the lock of a slot. -/
inductive SlotHolder where
  | caller (id : Nat)
  | census (id : Nat)
deriving DecidableEq, Repr

/-- What is under a key, if it has been built, behind a lock of its own. -/
structure Slot (α : Type) where
  content : Option α := none
  holder : Option SlotHolder := none
deriving DecidableEq, Repr

/-- What a build leaves in the slot, whose lock is given back with it. -/
def Slot.outcome {α : Type} : Outcome α → Slot α
  | .ok a => { content := some a }
  | .error _ => {}

/-- It holds something, and nobody has locked it. -/
def Slot.isOpen {α : Type} (s : Slot α) : Bool := s.holder.isNone && s.content.isSome

/-- A slot for every key that has been asked for. -/
structure SlotTable (κ α : Type) where
  slots : List (κ × Slot α) := []
deriving Repr

namespace SlotTable

variable {κ α : Type} [DecidableEq κ]

/-- The slot of a key. -/
def slot (t : SlotTable κ α) (key : κ) : Slot α := (t.slots.lookup key).getD {}

/-- Makes sure that a key has a slot. -/
def find (t : SlotTable κ α) (key : κ) : SlotTable κ α :=
  if (t.slots.lookup key).isSome then t else { slots := t.slots ++ [(key, {})] }

/-- Changes the slot of a key that has one. -/
def set (t : SlotTable κ α) (key : κ) (s : Slot α) : SlotTable κ α :=
  { slots := t.slots.map fun (k, old) => (k, if k = key then s else old) }

/-- The slot of a key with its lock taken or given back. -/
def setHolder (t : SlotTable κ α) (key : κ) (holder : Option SlotHolder) : SlotTable κ α :=
  t.set key { t.slot key with holder }

/-- What a census comes to while everybody else stands still. -/
def count (t : SlotTable κ α) : Nat := t.slots.countP fun (_, s) => s.isOpen

/-- The whole call of a caller that is alone: `build` is run, on a state of its own, unless the
thing is there. -/
def shared {σ : Type} (t : SlotTable κ α) (key : κ) (build : σ → Outcome α × σ) (s : σ) :
    Outcome α × SlotTable κ α × σ :=
  let t := t.find key
  match (t.slot key).content with
  | some a => (.ok a, t, s)
  | none =>
    let (r, s) := build s
    (r, t.set key (.outcome r), s)

end SlotTable

/-! ## Many callers -/

/-- How far a call has come. -/
inductive SlotPhase (α : Type) where
  | arrived
  /-- It has found its slot and wants the lock. -/
  | found
  /-- It holds the lock and is about to look into the slot. -/
  | looking
  /-- It holds the lock and builds. -/
  | building
  | returned (r : Outcome α)

/-- A call for what is under a key. -/
structure SlotCall (κ α : Type) where
  id : Nat
  key : κ
  phase : SlotPhase α

/-- A call that counts what has been built, among the slots that were there when it began. -/
structure Census (κ : Type) where
  id : Nat
  /-- The slots to which it has still to go. -/
  ahead : List κ
  /-- Whether it holds the lock of the next of them. -/
  holding : Bool := false
  /-- Where it has found something. -/
  counted : List κ := []

/-- A table and those who have asked it for something. -/
structure SlotCalls (κ α : Type) where
  table : SlotTable κ α := {}
  calls : List (SlotCall κ α) := []
  censuses : List (Census κ) := []

namespace SlotCalls

variable {κ α : Type} [DecidableEq κ]

/-- Who goes on, and with what. -/
inductive Label (κ α : Type) where
  | arrive (key : κ)
  | find (id : Nat)
  | lock (id : Nat)
  | look (id : Nat)
  /-- The build of caller `id` is over. -/
  | finish (id : Nat) (r : Outcome α)
  /-- A census begins, which goes through the slots in this order. -/
  | census (order : List κ)
  /-- Census `id` tries the lock of the slot it has come to. -/
  | peek (id : Nat)
  /-- Census `id` looks into the slot whose lock it holds, and goes on. -/
  | tally (id : Nat)

/-- How far a caller has come. -/
def setPhase (s : SlotCalls κ α) (id : Nat) (phase : SlotPhase α) : SlotCalls κ α :=
  { s with calls := s.calls.map fun c => if c.id = id then { c with phase } else c }

/-- How far a census has come. -/
def setCensus (s : SlotCalls κ α) (census : Census κ) : SlotCalls κ α :=
  { s with censuses := s.censuses.map fun c => if c.id = census.id then census else c }

/-- The state after a step, if it can be taken. -/
def step (s : SlotCalls κ α) : Label κ α → Option (SlotCalls κ α)
  | .arrive key => some { s with calls := s.calls ++ [⟨s.calls.length, key, .arrived⟩] }
  | .find id => do
    let c ← s.calls.find? (·.id = id)
    match c.phase with
    | .arrived => some ({ s with table := s.table.find c.key }.setPhase id .found)
    | _ => none
  | .lock id => do
    let c ← s.calls.find? (·.id = id)
    match c.phase, (s.table.slot c.key).holder with
    | .found, none =>
      some ({ s with table := s.table.setHolder c.key (some (.caller id)) }.setPhase id .looking)
    | _, _ => none
  | .look id => do
    let c ← s.calls.find? (·.id = id)
    match c.phase, (s.table.slot c.key).content with
    | .looking, some a =>
      some ({ s with table := s.table.setHolder c.key none }.setPhase id (.returned (.ok a)))
    | .looking, none => some (s.setPhase id .building)
    | _, _ => none
  | .finish id r => do
    let c ← s.calls.find? (·.id = id)
    match c.phase with
    | .building =>
      some ({ s with table := s.table.set c.key (.outcome r) }.setPhase id (.returned r))
    | _ => none
  | .census order =>
    if order.isPerm (s.table.slots.map (·.1)) then
      some { s with censuses := s.censuses ++ [{ id := s.censuses.length, ahead := order }] }
    else none
  | .peek id => do
    let c ← s.censuses.find? (·.id = id)
    match c.ahead, c.holding with
    | key :: ahead, false =>
      match (s.table.slot key).holder with
      | some _ => some (s.setCensus { c with ahead })
      | none => some ({ s with table := s.table.setHolder key (some (.census id)) }.setCensus
          { c with holding := true })
    | _, _ => none
  | .tally id => do
    let c ← s.censuses.find? (·.id = id)
    match c.ahead, c.holding with
    | key :: ahead, true =>
      let counted := if (s.table.slot key).content.isSome then c.counted ++ [key] else c.counted
      some ({ s with table := s.table.setHolder key none }.setCensus
        { c with ahead, holding := false, counted })
    | _, _ => none

end SlotCalls

end ScriptHost
