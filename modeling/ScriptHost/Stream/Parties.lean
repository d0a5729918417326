import ScriptHost.Stream.Duplex
/-!
# Two parties at a connection in memory

Each end is in the hands of a party, and the parties make their calls at the same time.  A call that
reads waits until something has come, until the other end has closed or until the time of the read
is over, and the other party goes on meanwhile; all other calls are over at once.

`Parties.step` is this behaviour one step at a time, with the next step chosen from outside.
`Duplex.read` is the whole call of a party that reads while the other does nothing.
-/

set_option autoImplicit false

namespace ScriptHost

namespace Duplex

/-- What a party does with its end. -/
inductive Call where
  | write (data : Bytes)
  | closeWrite
  | drop
  | setReadTimeout (limit : Option Nat)
  | read (size : Nat)
  | readToClose

/-- What a call gives back. -/
inductive Reply where
  | done
  | written (r : Except IoFault Nat)
  | read (r : Except IoFault Bytes)
  | rest (data : Bytes)

/-- A call that is over. -/
structure Event where
  side : Side
  call : Call
  reply : Reply

/-- A call that waits. -/
inductive Waiting where
  | read (size : Nat) (d : Deadline)
  /-- It reads up to the end of the stream; what it has got so far. -/
  | rest (got : Bytes)

/-- Two parties, each with an end of its own, of which either may be waiting. -/
structure Parties where
  duplex : Duplex := {}
  waiting : Side → Option Waiting := fun _ => none

namespace Parties

/-- What can happen next. -/
inductive Label where
  | call (side : Side) (c : Call)
  /-- A party that waits looks for what has come. -/
  | look (side : Side)
  /-- The time of a read is over. -/
  | giveUp (side : Side)
  | pass (ms : Nat)

/-- Notes what a party waits for. -/
def setWaiting (p : Parties) (side : Side) (w : Option Waiting) : Parties :=
  { p with waiting := fun s => if s = side then w else p.waiting s }

/-- A party makes a call. -/
def start (p : Parties) (side : Side) (c : Call) : Option Event × Parties :=
  let finished (reply : Reply) (duplex : Duplex) := (some ⟨side, c, reply⟩, { p with duplex })
  match c with
  | .write data =>
    let (r, duplex) := p.duplex.write side data
    finished (.written r) duplex
  | .closeWrite => finished .done (p.duplex.closeWrite side)
  | .drop => finished .done (p.duplex.drop side)
  | .setReadTimeout limit => finished .done (p.duplex.setReadTimeout side limit)
  | .read size => (none, p.setWaiting side (some (.read size (p.duplex.patience side))))
  | .readToClose => (none, p.setWaiting side (some (.rest [])))

/-- A call that waits takes what has come.  Nothing happens if nothing has. -/
def look (p : Parties) (side : Side) : Waiting → Option (Option Event × Parties)
  | .read size _ =>
    if size = 0 || p.duplex.isReady side then
      let (r, duplex) := p.duplex.read side size
      some (some ⟨side, .read size, .read r⟩, { p with duplex }.setWaiting side none)
    else none
  | .rest got =>
    let (data, duplex) := p.duplex.readToClose side
    if (duplex.get side).transport.ended then
      some (some ⟨side, .readToClose, .rest (got ++ data)⟩, { p with duplex }.setWaiting side none)
    else some (none, { p with duplex }.setWaiting side (some (.rest (got ++ data))))

/-- A read whose time is over ends.  It may have looked for the last time before something came. -/
def giveUp (p : Parties) (side : Side) : Waiting → Option (Option Event × Parties)
  | .read size d =>
    if size ≠ 0 && d.isExpired p.duplex.clock then
      some (some ⟨side, .read size, .read (.error readTimedOut)⟩, p.setWaiting side none)
    else none
  | .rest _ => none

/-- What is over with a step, if anything is, and the state afterwards, if the step can be taken. -/
def step (p : Parties) : Label → Option (Option Event × Parties)
  | .call side c =>
    if (p.waiting side).isSome || (p.duplex.get side).dropped then none else some (p.start side c)
  | .look side => (p.waiting side).bind (p.look side)
  | .giveUp side => (p.waiting side).bind (p.giveUp side)
  | .pass ms => some (none, { p with duplex := { p.duplex with clock := p.duplex.clock.pass ms } })

end Parties

end Duplex

end ScriptHost
