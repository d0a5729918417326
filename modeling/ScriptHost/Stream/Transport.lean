import ScriptHost.Deadline
import ScriptHost.Failure
import ScriptHost.Text.Utf8
/-!
# Transports

A transport is seen through the answers that it gives to calls that read and calls that write.  What
arrives is a list of answers to reads, each with the instant from which it is there; a write is
accepted in part or as a whole, or refused.  Either may be delayed or interrupted for no reason,
which a caller sits out until its deadline.

The in-memory transport is the one whose reads find the chunks that the peer has sent and whose
writes are accepted as a whole.
-/

set_option autoImplicit false

namespace ScriptHost

/-- The answer to a read. -/
inductive Arrival where
  /-- Bytes that are there from an instant on. -/
  | bytes (instant : Nat) (data : Bytes)
  | trouble (instant : Nat) (e : IoFault)

/-- The answer to a write, after some milliseconds: how many bytes are taken, or why none are. -/
structure WriteAnswer where
  delay : Nat
  taken : Except IoFault Nat

/-- One side of a connection: what arrives, what becomes of writes, and what has been sent. -/
structure Transport where
  incoming : List Arrival := []
  /-- Whether the stream ends behind what is incoming; otherwise nothing more ever comes. -/
  ended : Bool := false
  outgoing : List WriteAnswer := []
  /-- Why writes fail behind the answers of `outgoing`; otherwise they are accepted as a whole. -/
  refused : Option IoFault := none
  /-- All bytes that were accepted. -/
  sent : Bytes := []

/-- A transport and the time. -/
structure Wire where
  clock : Clock := {}
  transport : Transport := {}

/-- A computation that uses a wire and may fail; what it has done to the wire remains. -/
abbrev Io (α : Type) := ExceptT Failure (StateM Wire) α

namespace Transport

/-- An end of the stream is all that is left. -/
def isAtEnd (t : Transport) : Bool := t.incoming.isEmpty && t.ended

/-- Lets bytes arrive at an instant, behind all others. -/
def deliver (t : Transport) (instant : Nat) (data : Bytes) : Transport :=
  if data.isEmpty then t else { t with incoming := t.incoming ++ [.bytes instant data] }

/-- The peer sends nothing more. -/
def close (t : Transport) : Transport := { t with ended := true }

/-- What is reported of a peer that has gone away. -/
def peerGone : IoFault := ⟨.brokenPipe, "peer dropped"⟩

/-- The peer goes away: it sends nothing more and takes nothing more. -/
def abandon (t : Transport) : Transport := { t with ended := true, refused := some peerGone }

/-- The bytes that are still to come. -/
def unread (t : Transport) : Bytes :=
  t.incoming.flatMap fun a => match a with | .bytes _ data => data | .trouble _ _ => []

/-- How many bytes are still to come. -/
def unreadSize (t : Transport) : Nat :=
  let size (a : Arrival) := match a with | .bytes _ data => data.length | .trouble _ _ => 0
  (t.incoming.map size).foldr (· + ·) 0

theorem length_unread (t : Transport) : t.unread.length = t.unreadSize := by
  rw [unread, unreadSize, List.length_flatMap, List.sum_eq_foldr]
  congr 2
  funext a
  cases a <;> rfl

end Transport

namespace Wire

/-- Whether something that is there from `instant` on comes too late for a deadline that passes at
`expiry`. -/
def tooLate (expiry : Option Nat) (now instant : Nat) : Bool :=
  match expiry with
  | some e => e ≤ max now instant
  | none => false

/-- Waits until the deadline has passed.  A call that nothing can end any more is taken to end that
way, too. -/
def expire {α : Type} (w : Wire) (d : Deadline) (operation : String) : Outcome α × Wire :=
  (.error (.timeout operation),
    match d.expiry? w.clock with
    | some e => { w with clock := w.clock.advanceTo e }
    | none => w)

/-- The answer to a read of at most `size` bytes out of what arrives. -/
def receiveFrom (w : Wire) (d : Deadline) (operation : String) (size : Nat) :
    List Arrival → Outcome Bytes × Wire
  | [] =>
    let w := { w with transport := { w.transport with incoming := [] } }
    if w.transport.ended then (.ok [], w) else w.expire d operation
  | .bytes instant data :: rest =>
    if tooLate (d.expiry? w.clock) w.clock.now instant then
      let incoming := .bytes instant data :: rest
      { w with transport := { w.transport with incoming } }.expire d operation
    else
      let w := { w with clock := w.clock.advanceTo instant }
      if data.isEmpty then w.receiveFrom d operation size rest
      else
        let left := data.drop size
        let incoming := if left.isEmpty then rest else .bytes instant left :: rest
        (.ok (data.take size), { w with transport := { w.transport with incoming } })
  | .trouble instant e :: rest =>
    if tooLate (d.expiry? w.clock) w.clock.now instant then
      let incoming := .trouble instant e :: rest
      { w with transport := { w.transport with incoming } }.expire d operation
    else
      let w := { w with clock := w.clock.advanceTo instant }
      if e.kind.isDelay || e.kind = .interrupted then w.receiveFrom d operation size rest
      else (.error (.ofIoIn operation e),
        { w with transport := { w.transport with incoming := rest } })

/-- The answer to a read without a deadline, which sits nothing out: a delay or an interruption is
its answer. -/
def receivePlain (w : Wire) (size : Nat) : List Arrival → Outcome Bytes × Wire
  | [] => w.receiveFrom .never "read" size []
  | .bytes instant data :: rest =>
    if data.isEmpty then { w with clock := w.clock.advanceTo instant }.receivePlain size rest
    else w.receiveFrom .never "read" size (.bytes instant data :: rest)
  | .trouble instant e :: rest =>
    (.error (.ofIo e),
      { w with
        clock := w.clock.advanceTo instant
        transport := { w.transport with incoming := rest } })

/-- Reads at most `size` bytes; none means the end of the stream. -/
def receive (w : Wire) (d : Deadline) (operation : String) (size : Nat) : Outcome Bytes × Wire :=
  if d.isExpired w.clock then (.error (.timeout operation), w)
  else if size = 0 then (.ok [], w)
  else w.receiveFrom d operation size w.transport.incoming

/-- Takes bytes that are sent. -/
def accept (w : Wire) (data : Bytes) : Wire :=
  { w with transport := { w.transport with sent := w.transport.sent ++ data } }

/-- Writes data into a transport that answers as given. -/
def sendBy (w : Wire) (d : Deadline) (operation : String) :
    List WriteAnswer → Bytes → Outcome Unit × Wire
  | answers, [] => (.ok (), { w with transport := { w.transport with outgoing := answers } })
  | [], data =>
    let w := { w with transport := { w.transport with outgoing := [] } }
    if d.isExpired w.clock then (.error (.timeout operation), w)
    else
      match w.transport.refused with
      | some e => (.error (.ofIoIn operation e), w)
      | none => (.ok (), w.accept data)
  | answer :: answers, data =>
    if d.isExpired w.clock then
      (.error (.timeout operation),
        { w with transport := { w.transport with outgoing := answer :: answers } })
    else
      let w := { w with clock := w.clock.pass answer.delay }
      match answer.taken with
      | .ok 0 =>
        (.error (.ofIoIn operation IoKind.writeZero.fault),
          { w with transport := { w.transport with outgoing := answers } })
      | .ok n => (w.accept (data.take n)).sendBy d operation answers (data.drop n)
      | .error e =>
        if e.kind.isDelay || e.kind = .interrupted then w.sendBy d operation answers data
        else (.error (.ofIoIn operation e),
          { w with transport := { w.transport with outgoing := answers } })

/-- Writes all of the data. -/
def send (w : Wire) (d : Deadline) (operation : String) (data : Bytes) : Outcome Unit × Wire :=
  w.sendBy d operation w.transport.outgoing data

end Wire

namespace Io

/-- Reads at most `size` bytes; none means the end of the stream. -/
def readSome (d : Deadline) (operation : String) (size : Nat) : Io Bytes :=
  fun w => w.receive d operation size

/-- Reads at most `size` bytes without a deadline. -/
def readPlain (size : Nat) : Io Bytes :=
  fun w => w.receivePlain size w.transport.incoming

/-- Sends all of some bytes, before a deadline comes. -/
def writeAll (d : Deadline) (operation : String) (data : Bytes) : Io Unit :=
  fun w => w.send d operation data

/-- Reads on until `missing` more bytes are there; each round brings at least one. -/
def readMore (d : Deadline) (operation : String) : Nat → Nat → Bytes → Io Bytes
  | 0, _, got => pure got
  | _, 0, got => pure got
  | fuel + 1, missing, got => do
    let chunk ← readSome d operation missing
    if chunk.isEmpty then throw (.ofIoIn operation IoKind.unexpectedEof.fault)
    else readMore d operation fuel (missing - chunk.length) (got ++ chunk)

/-- Reads exactly `size` bytes. -/
def readFull (d : Deadline) (operation : String) (size : Nat) : Io Bytes :=
  readMore d operation size size []

end Io

end ScriptHost
