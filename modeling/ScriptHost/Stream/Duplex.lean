import ScriptHost.Stream.Transport
/-!
# Connections in memory

Two ends, each of which reads the chunks that the other has written.  A chunk is read in one or
several parts but never together with the next one.
-/

set_option autoImplicit false

namespace ScriptHost

/-- One end of a connection in memory. -/
structure Duplex.End where
  transport : Transport := {}
  /-- How long a read waits, in milliseconds; for ever if there is no limit. -/
  readTimeout : Option Nat := none
  writes : Bool := true
  dropped : Bool := false

/-- Two ends, of which each reads what the other writes. -/
structure Duplex where
  clock : Clock := {}
  a : Duplex.End := {}
  b : Duplex.End := {}

namespace Duplex

/-- The two ends. -/
inductive Side where
  | a
  | b
deriving DecidableEq

/-- The opposite end. -/
def Side.other : Side → Side
  | a => b
  | b => a

/-- What an end looks like. -/
def get (c : Duplex) : Side → End
  | .a => c.a
  | .b => c.b

/-- Puts something in the place of an end. -/
def set (c : Duplex) (e : End) : Side → Duplex
  | .a => { c with a := e }
  | .b => { c with b := e }

/-- Changes an end. -/
def modify (c : Duplex) (side : Side) (f : End → End) : Duplex := c.set (f (c.get side)) side

/-- The stream to the other end is over. -/
def closeWrite (c : Duplex) (side : Side) : Duplex :=
  (c.modify side fun e => { e with writes := false }).modify side.other fun e =>
    { e with transport := e.transport.close }

/-- An end goes away: it writes nothing any more, and the other one learns so when it reads or
writes. -/
def drop (c : Duplex) (side : Side) : Duplex :=
  (c.modify side fun e => { e with dropped := true, writes := false }).modify side.other fun e =>
    { e with transport := e.transport.abandon }

/-- Limits how long reads at an end may take. -/
def setReadTimeout (c : Duplex) (side : Side) (limit : Option Nat) : Duplex :=
  c.modify side fun e => { e with readTimeout := limit }

/-- Writes a chunk for the other end; an empty one always succeeds while the side still writes. -/
def write (c : Duplex) (side : Side) (data : Bytes) : Except IoFault Nat × Duplex :=
  if !(c.get side).writes then (.error ⟨.brokenPipe, "write side closed"⟩, c)
  else if data.isEmpty then (.ok 0, c)
  else
    match (c.get side).transport.refused with
    | some e => (.error e, c)
    | none =>
      (.ok data.length,
        c.modify side.other fun e => { e with transport := e.transport.deliver c.clock.now data })

/-- Whether a read need not wait: something has come, or nothing ever will. -/
def isReady (c : Duplex) (side : Side) : Bool :=
  !(c.get side).transport.incoming.isEmpty || (c.get side).transport.ended

/-- How long a read waits that begins now. -/
def patience (c : Duplex) (side : Side) : Deadline :=
  match (c.get side).readTimeout with
  | some ms => .after c.clock ms
  | none => .never

/-- What is reported of a read that has taken too long. -/
def readTimedOut : IoFault := ⟨.timedOut, "read timed out"⟩

/-- Reads at most `size` bytes of what is there; none means that the other end has closed.  What is
there is read even by one who does not wait at all. -/
def read (c : Duplex) (side : Side) (size : Nat) : Except IoFault Bytes × Duplex :=
  if size = 0 then (.ok [], c)
  else
    let e := c.get side
    let d := if c.isReady side then .never else c.patience side
    let wire : Wire := { clock := c.clock, transport := e.transport }
    let (result, wire) := wire.receiveFrom d "read" size e.transport.incoming
    let c := { c with clock := wire.clock }.set { e with transport := wire.transport } side
    match result with
    | .ok data => (.ok data, c)
    | .error _ => (.error readTimedOut, c)

/-- Everything that has not been read yet, up to the end of the stream. -/
def readToClose (c : Duplex) (side : Side) : Bytes × Duplex :=
  ((c.get side).transport.unread,
    c.modify side fun e => { e with transport := { e.transport with incoming := [] } })

end Duplex

end ScriptHost
