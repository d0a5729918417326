import ScriptHost.WebSocket.Frame
import ScriptHost.Text.Quoted
/-!
# WebSockets

A connection that has been upgraded exchanges messages.  A message may arrive in several frames,
with control frames between them, which are handed out as they come.  A ping is answered and the
first close is echoed before the read that finds it returns.
-/

set_option autoImplicit false

namespace ScriptHost

/-- What the host knows of a web socket. -/
structure WebSocket where
  writeDeadline : Deadline
  closeSent : Bool := false
  closeReceived : Bool := false

namespace WebSocket

/-- Whether either side has closed the socket. -/
def isClosed (s : WebSocket) : Bool := s.closeSent || s.closeReceived

/-- The state of a socket is kept also when a call fails. -/
abbrev Call (α : Type) := ExceptT Failure (StateM (WebSocket × Wire)) α

/-- What a transport does, as a part of a call. -/
def liftIo {α : Type} (io : Io α) : Call α := fun (s, w) =>
  let (r, w) := io w
  (r, (s, w))

/-- The socket that the call is about. -/
def getSocket : Call WebSocket := fun (s, w) => (.ok s, (s, w))

/-- Keeps what is known of the socket. -/
def setSocket (s : WebSocket) : Call Unit := fun (_, w) => (.ok (), (s, w))

/-- Writes a message as one frame. -/
def write (kind : Kind) (data : Bytes) : Call Unit := do
  let s ← getSocket
  liftIo (Io.writeAll s.writeDeadline "write websocket frame" (encodeFrame kind data none))

/-- Answers a control frame. -/
def answer (kind : Kind) (data : Bytes) : Call Unit := do
  match kind with
  | .ping => write .pong data
  | .close =>
    let s ← getSocket
    setSocket { s with closeReceived := true, closeSent := true }
    if s.closeSent then pure () else write .close data
  | _ => pure ()

/-- An opcode as messages show it. -/
def opcodeText (n : Nat) : String := "0x" ++ Text.hexNumber n

/-- What becomes of a frame, given the fragments of an unfinished message: a message, or more
fragments. -/
def absorb (frame : Frame) (fragments : Option Message) : Call (Message ⊕ Option Message) := do
  if frame.opcode = 0 then
    match fragments with
    | none => throw (.illegalState "continuation frame without a message")
    | some m =>
      let m : Message := { m with data := m.data ++ frame.payload }
      if maxMessage < m.data.length then throw (.exhausted "websocket message too large")
      return if frame.final then .inl m else .inr (some m)
  else
    match Kind.ofOpcode? frame.opcode with
    | none => throw (.illegalState ("unknown websocket opcode " ++ opcodeText frame.opcode))
    | some kind =>
      let m : Message := ⟨kind, frame.payload⟩
      if kind.isControl then
        answer kind frame.payload
        return .inl m
      else return if frame.final then .inl m else .inr (some m)

/-- Reads frames until they make a message. -/
def readLoop (d : Deadline) : Nat → Option Message → Call Message
  | 0, _ => throw (.timeout readOperation)
  | fuel + 1, fragments => do
    let frame ← liftIo (readFrame d)
    match ← absorb frame fragments with
    | .inl m => return m
    | .inr fragments => readLoop d fuel fragments

/-- Reads the next message.  Every frame takes at least two bytes from the stream, so the unread
bytes bound the number of frames. -/
def read (d : Deadline) : Call Message := do
  if (← getSocket).closeReceived then throw (.illegalState "websocket is closed")
  let size ← liftIo fun w => (.ok w.transport.unreadSize, w)
  readLoop d (size + 1) none

/-- Sends a message, unless the host has closed the socket. -/
def send (m : Message) : Call Unit := do
  if (← getSocket).closeSent then throw (.illegalState "websocket is closed")
  write m.kind m.data

/-- The status of a close that has no other reason. -/
def normalClosure : Nat := 1000

/-- Closes this side of the connection, once. -/
def close : Call Unit := do
  let s ← getSocket
  if s.closeSent then return ()
  setSocket { s with closeSent := true }
  write .close (Sha1.bigEndian 2 normalClosure)

end WebSocket

end ScriptHost
