import ScriptHost.Stream.Transport
/-!
# Transports call by call

A `Wire` says what comes of a read or a write that waits.  Behind it stand single calls of the
transport: it is told for how long it may wait, and then it moves some of the bytes, or none of
them, or says why it cannot.  One who has bytes to move calls again and again, until they are moved
or the deadline has passed.

A `Link` is a transport that is seen this way: through its answers, one for each call, whatever they
are.  How long it makes its callers wait is up to it, too, so what it has been told about that is of
no account, unless it will not be told.  The answers may run out before the bytes are moved; then a
read or a write has no result yet, which is how it stands at some time with a transport that answers
for ever.
-/

set_option autoImplicit false

namespace ScriptHost

namespace Link

/-- The answer to one call that moves bytes. -/
inductive Answer where
  /-- So many bytes are moved, as far as there are so many; none means the end of the stream. -/
  | moved (delay count : Nat)
  | fault (delay : Nat) (e : IoFault)
  /-- The transport cannot be told for how long it may wait. -/
  | unlimited (e : IoFault)

/-- What an answer is to the caller. -/
inductive Reply where
  | moved (count : Nat)
  | again
  | failed (f : Failure)

namespace Answer

/-- How long the answer takes. -/
def delay : Answer → Nat
  | moved delay _ => delay
  | fault delay _ => delay
  | unlimited _ => 0

/-- What a loop makes of the answer: go on, try again, or give up. -/
def reply (operation : String) : Answer → Reply
  | moved _ count => .moved count
  | fault _ e =>
    if e.kind.isDelay || e.kind = .interrupted then .again else .failed (.ofIoIn operation e)
  | unlimited e => .failed (.ofIo e)

end Answer

end Link

/-- A stream that somebody else answers for, the bytes that it brings and those that it has
accepted. -/
structure Link where
  clock : Clock := {}
  answers : List Link.Answer := []
  /-- The bytes that are still to come. -/
  unread : Bytes := []
  /-- All bytes that were accepted. -/
  accepted : Bytes := []
  /-- The answer to a flush. -/
  flushed : Except IoFault Unit := .ok ()

namespace Link

/-- Reads at most `size` bytes from a transport that answers as given; no bytes mean the end of the
stream, and no result means that it is still waiting. -/
def readSomeBy (l : Link) (d : Deadline) (operation : String) (size : Nat) (answers : List Answer) :
    Option (Outcome Bytes) × Link :=
  if d.isExpired l.clock then (some (.error (.timeout operation)), { l with answers })
  else
    match answers with
    | [] => (none, { l with answers := [] })
    | a :: answers =>
      let l := { l with clock := l.clock.pass a.delay }
      match a.reply operation with
      | .moved count =>
        let n := min count size
        (some (.ok (l.unread.take n)), { l with answers, unread := l.unread.drop n })
      | .again => l.readSomeBy d operation size answers
      | .failed f => (some (.error f), { l with answers })

/-- Reads what is there, at most so many bytes. -/
def readSome (l : Link) (d : Deadline) (operation : String) (size : Nat) :
    Option (Outcome Bytes) × Link :=
  l.readSomeBy d operation size l.answers

/-- Writes data into a transport that answers as given. -/
def writeAllBy (l : Link) (d : Deadline) (operation : String) (data : Bytes)
    (answers : List Answer) :
    Option (Outcome Unit) × Link :=
  if data.isEmpty then (some (l.flushed.mapError (.ofIoIn operation)), { l with answers })
  else if d.isExpired l.clock then (some (.error (.timeout operation)), { l with answers })
  else
    match answers with
    | [] => (none, { l with answers := [] })
    | a :: answers =>
      let l := { l with clock := l.clock.pass a.delay }
      match a.reply operation with
      | .moved 0 => (some (.error (.ofIoIn operation IoKind.writeZero.fault)), { l with answers })
      | .moved n =>
        { l with accepted := l.accepted ++ data.take n }.writeAllBy d operation
          (data.drop n) answers
      | .again => l.writeAllBy d operation data answers
      | .failed f => (some (.error f), { l with answers })

/-- Writes all of the data. -/
def writeAll (l : Link) (d : Deadline) (operation : String) (data : Bytes) :
    Option (Outcome Unit) × Link :=
  l.writeAllBy d operation data l.answers

/-- Reads on until `missing` more bytes are there. -/
def readMore (l : Link) (d : Deadline) (operation : String) (missing : Nat) (got : Bytes) :
    Option (Outcome Bytes) × Link :=
  if missing = 0 then (some (.ok got), l)
  else
    match l.readSome d operation missing with
    | (some (.ok chunk), l) =>
      if chunk = [] then (some (.error (.ofIoIn operation IoKind.unexpectedEof.fault)), l)
      else l.readMore d operation (missing - chunk.length) (got ++ chunk)
    | (some (.error f), l) => (some (.error f), l)
    | (none, l) => (none, l)
termination_by missing
decreasing_by
  have hchunk : 0 < chunk.length := List.length_pos_iff.2 ‹_›
  omega

/-- Reads exactly `size` bytes. -/
def readFull (l : Link) (d : Deadline) (operation : String) (size : Nat) :
    Option (Outcome Bytes) × Link :=
  l.readMore d operation size []

end Link

end ScriptHost
