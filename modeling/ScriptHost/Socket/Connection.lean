import ScriptHost.Stream.Transport
/-!
# TCP connections

A connection reads ahead: what arrives goes through a buffer, from which the reads of a script are
served.  A line is read up to its end or the end of the stream.  What a read of a line has taken out
of the buffer when its time runs out is gone with it.
-/

set_option autoImplicit false

namespace ScriptHost

/-- One end of a connection: what it keeps between two calls. -/
structure TcpConnection where
  /-- What has arrived and has not been read. -/
  buffer : Bytes := []
  closed : Bool := false
deriving DecidableEq, Repr, Inhabited

namespace TcpConnection

/-- The state of a connection is kept also when a call fails. -/
abbrev Call (α : Type) := ExceptT Failure (StateM (TcpConnection × Wire)) α

/-- How many bytes are asked for at a time. -/
def bufferSize : Nat := 8192

/-- What a transport does, as a part of a call. -/
def liftIo {α : Type} (io : Io α) : Call α := fun (c, w) =>
  let (r, w) := io w
  (r, (c, w))

/-- The end that the call is about. -/
def getConnection : Call TcpConnection := fun (c, w) => (.ok c, (c, w))

/-- The time. -/
def getClock : Call Clock := fun (c, w) => (.ok w.clock, (c, w))

/-- Keeps bytes for the next call. -/
def setBuffer (buffer : Bytes) : Call Unit := fun (c, w) => (.ok (), ({ c with buffer }, w))

/-- Fails on an end that has been closed. -/
def ensureOpen : Call Unit := do
  if (← getConnection).closed then throw (.illegalState "tcp connection is closed")

/-- The buffer, filled if it was empty; it stays empty at the end of the stream only. -/
def fill (d : Deadline) (operation : String) (size : Nat) : Call Bytes := fun (c, w) =>
  if d.isExpired w.clock then (.error (.timeout operation), (c, w))
  else if c.buffer.isEmpty then
    match Io.readSome d operation size w with
    | (.ok buffer, w) => (.ok buffer, ({ c with buffer }, w))
    | (.error e, w) => (.error e, (c, w))
  else (.ok c.buffer, (c, w))

/-- Reads at most `size` bytes, at least one unless the stream is over. -/
def read (size : Nat) (d : Deadline) : Call Bytes := do
  ensureOpen
  let size := max size 1
  let buffer ← fill d "tcp read" (max size bufferSize)
  setBuffer (buffer.drop size)
  return buffer.take size

/-- How long the next part of a line may take.  A read of a line that has begun looks at its
deadline again only when nothing has come for as long as it could wait in the beginning. -/
def patience (d : Deadline) (start now : Clock) : Deadline :=
  match d.waitSlice start, d.expiry? now with
  | some slice, some instant => .atInstant (max instant (now.now + slice))
  | _, _ => d

/-- Reads on to the end of a line of which a part has been read; each round takes the whole buffer,
which holds some of the bytes to come. -/
def readLineFrom (d : Deadline) (start : Clock) : Nat → Bytes → Call Bytes
  | 0, line => pure line
  | fuel + 1, line => do
    let buffer ← fill (patience d start (← getClock)) "tcp read line" bufferSize
    let rest := buffer.dropWhile (· ≠ 10)
    setBuffer rest.tail
    let line := line ++ buffer.takeWhile (· ≠ 10)
    match buffer, rest with
    | [], _ => return line
    | _, [] => readLineFrom d start fuel line
    | _, ending :: _ => return line ++ [ending]

/-- Reads a line with its end, or what there is before the end of the stream. -/
def readLine (d : Deadline) : Call Bytes := do
  ensureOpen
  fun (c, w) =>
    if d.isExpired w.clock then (.error (.timeout "tcp read line"), (c, w))
    else readLineFrom d w.clock (c.buffer.length + w.transport.unreadSize + 1) [] (c, w)

/-- Writes all of the data. -/
def write (data : Bytes) (d : Deadline) : Call Nat := do
  ensureOpen
  liftIo (Io.writeAll d "tcp write" data)
  return data.length

end TcpConnection

end ScriptHost
