import ScriptHost.LockTable
import ScriptHost.Stream.Head
import ScriptHost.WebSocket.Basic
/-!
# Request contexts

A request is answered through its context.  The context reads the body from the transport, writes
the response to it, and may turn the connection into a WebSocket.  It moves through its phases in
one direction only, and in the last ones nothing is read or written any more.

The head of a response is made of the status and the headers at the first write; it is sent once, in
one piece with the first data.
-/

set_option autoImplicit false

namespace ScriptHost

/-- How far a request has come. -/
inductive Phase where
  | created
  | headerRead
  | bodyStreaming
  | upgraded
  | completed
  | timedOut
  | aborted
deriving DecidableEq, Repr

namespace Phase

/-- Whether nobody may read or write any more. -/
def isTerminal : Phase → Bool
  | upgraded | completed | timedOut | aborted => true
  | created | headerRead | bodyStreaming => false

/-- The name of a phase in messages. -/
def name : Phase → String
  | created => "created"
  | headerRead => "header-read"
  | bodyStreaming => "body-streaming"
  | upgraded => "upgraded"
  | completed => "completed"
  | timedOut => "timed-out"
  | aborted => "aborted"

end Phase

/-- The reason that goes with a status, where there is a usual one. -/
def reasonPhrase : Nat → String
  | 101 => "Switching Protocols"
  | 200 => "OK"
  | 201 => "Created"
  | 204 => "No Content"
  | 400 => "Bad Request"
  | 404 => "Not Found"
  | 405 => "Method Not Allowed"
  | 408 => "Request Timeout"
  | 500 => "Internal Server Error"
  | 503 => "Service Unavailable"
  | _ => ""

/-- What a handler knows of its request and has prepared for the response. -/
structure Context where
  head : Head
  phase : Phase := .created
  holder : Holder
  token : Token
  deadline : Deadline
  /-- The bytes of the body that have not been read. -/
  remaining : Nat
  status : Nat := 200
  headers : List (String × String) := []
  headSent : Bool := false
  /-- Whether the context still has its transport. -/
  attached : Bool := true

/-- A request that is being handled: its context, the wire, and the WebSocket that it may have
become. -/
structure Exchange where
  context : Context
  wire : Wire
  socket : Option WebSocket := none

namespace Context

/-- The context of a new request, whose time counts from now. -/
def new (clock : Clock) (head : Head) (timeout : Int) (token : Token) (holder : Holder) : Context :=
  { head, holder, token, deadline := (Deadline.ofTimeout clock timeout).withCancel token,
    remaining := head.contentLength }

/-- The deadline of a single call: the tighter one of its own and the request's. -/
def deadlineFor (c : Context) (clock : Clock) (timeout : Int) : Deadline :=
  (Deadline.ofTimeout clock timeout).min c.deadline

/-- Whether the handler has answered by itself. -/
def returnless (c : Context) : Bool := c.headSent || c.phase = .upgraded

/-- The head of the response, up to the empty line. -/
def responseHead (c : Context) (length : Option Nat) : String :=
  "HTTP/1.1 " ++ toString c.status ++ " " ++ reasonPhrase c.status ++ "\r\n" ++
    String.join (c.headers.map fun (name, value) => name ++ ": " ++ value ++ "\r\n") ++
    (match length with
      | some n => "Content-Length: " ++ toString n ++ "\r\n"
      | none => "Connection: close\r\n") ++ "\r\n"

/-- The response that hands the connection over to the messages of a web socket. -/
def upgradeResponse (key : String) : String :=
  "HTTP/1.1 101 Switching Protocols\r\nUpgrade: websocket\r\nConnection: Upgrade\r\n" ++
    "Sec-WebSocket-Accept: " ++ WebSocket.acceptKey key ++ "\r\n\r\n"

end Context

/-- A computation on a request; what it has done remains also when it fails. -/
abbrev Act (α : Type) := ExceptT Failure (StateM Exchange) α

namespace Act

/-- The context as it stands. -/
def context : Act Context := fun x => (.ok x.context, x)

/-- Changes the context. -/
def modify (f : Context → Context) : Act Unit :=
  fun x => (.ok (), { x with context := f x.context })

/-- The time. -/
def clock : Act Clock := fun x => (.ok x.wire.clock, x)

/-- Takes the request to another phase. -/
def setPhase (p : Phase) : Act Unit := modify fun c => { c with phase := p }

/-- Fails in a phase that is for good. -/
def ensureOpen (operation : String) : Act Unit := do
  let c ← context
  if c.phase.isTerminal then
    throw (.illegalState ("cannot " ++ operation ++ " once the request is " ++ c.phase.name))

/-- Looking at the head is the first thing that can happen to a request. -/
def touchHead : Act Head := do
  let c ← context
  if c.phase = .created then setPhase .headerRead
  return c.head

/-- Uses the transport.  A timeout ends the request. -/
def transfer {α : Type} (io : Io α) : Act α := fun x =>
  if x.context.attached then
    match io x.wire with
    | (.ok a, wire) => (.ok a, { x with wire })
    | (.error e, wire) =>
      let context := if e.isTimeout then { x.context with phase := .timedOut } else x.context
      (.error e, { x with wire, context })
  else (.error (.illegalState "request transport is gone"), x)

/-! ## The body -/

/-- Opens the body for reading. -/
def reader : Act Unit := do
  ensureOpen "read the body"
  setPhase .bodyStreaming

/-- Reads at most `max` bytes of the body; none means its end. -/
def readBody (max : Nat) : Act Bytes := do
  ensureOpen "read the body"
  let c ← context
  if c.remaining = 0 || max = 0 then return []
  let data ← transfer (Io.readSome c.deadline "read request body" (Nat.min max c.remaining))
  modify fun c => { c with remaining := if data.isEmpty then 0 else c.remaining - data.length }
  return data

/-- The next byte of the body; none behind its end. -/
def readByte : Act (Option UInt8) := do
  let data ← readBody 1
  return data.head?

/-- The size of the pieces in which a whole body is read. -/
def chunkSize : Nat := 8192

/-- Reads until the end, given what has been read; each round but the last brings at least one byte
of the `fuel` that remain. -/
def readRest : Nat → Bytes → Act Bytes
  | 0, got => pure got
  | fuel + 1, got => do
    let chunk ← readBody chunkSize
    if chunk.isEmpty then return got
    readRest fuel (got ++ chunk)

/-- The rest of the body. -/
def body : Act Bytes := do
  reader
  let c ← context
  readRest (c.remaining + 1) []

/-- An error of a body read as one of plain input. -/
def asIoFault (e : Failure) : IoFault :=
  ⟨if e.isTimeout then .timedOut else .other, e.message?.getD ""⟩

/-- Reads until the end or an error, and keeps what was read before the error. -/
def readToEnd : Nat → Bytes → Act (Bytes × Option IoFault)
  | 0, got => pure (got, none)
  | fuel + 1, got => fun x =>
    match readBody chunkSize x with
    | (.ok chunk, x) =>
      if chunk.isEmpty then (.ok (got, none), x) else readToEnd fuel (got ++ chunk) x
    | (.error e, x) => (.ok (got, some (asIoFault e)), x)

/-! ## The response -/

/-- The status that the response will have, unless its head has been sent. -/
def setStatus (status : Nat) : Act Unit := do
  if (← context).headSent then throw (.illegalState "response head already sent")
  modify fun c => { c with status }

/-- Adds a header to the response, unless its head has been sent. -/
def setHeader (name value : String) : Act Unit := do
  if (← context).headSent then throw (.illegalState "response head already sent")
  modify fun c => { c with headers := c.headers ++ [(name, value)] }

/-- Writes a part of the response, behind its head if that has not been sent. -/
def write (data : Bytes) : Act Nat := do
  ensureOpen "write"
  let c ← context
  let out := if c.headSent then data else Utf8.encode (c.responseHead none) ++ data
  transfer (Io.writeAll c.deadline "write response" out)
  modify fun c => { c with headSent := true }
  return data.length

/-- Nothing has to be flushed, but the transport must still be there. -/
def flush : Act Unit := do
  ensureOpen "flush"
  if !(← context).attached then throw (.illegalState "request transport is gone")

/-- Sends the whole response, which ends the request. -/
def respond (status : Nat) (type : String) (data : Bytes) : Act Unit := do
  ensureOpen "respond"
  if (← context).headSent then throw (.illegalState "response already started")
  modify fun c => { c with status, headers := c.headers ++ [("Content-Type", type)] }
  let c ← context
  transfer (Io.writeAll c.deadline "write response"
    (Utf8.encode (c.responseHead (some data.length)) ++ data))
  modify fun c => { c with headSent := true, phase := .completed }

/-! ## The end of a request -/

/-- Turns the connection into a WebSocket, which takes over the transport. -/
def upgrade : Act Unit := do
  ensureOpen "upgrade"
  let c ← context
  if c.headSent then throw (.illegalState "cannot upgrade after writing a response")
  if !Text.sameIgnoringCase ((c.head.header? "upgrade").getD "") "websocket" then
    throw (.illegalState "request is not a websocket upgrade")
  match c.head.header? "sec-websocket-key" with
  | none => throw (.illegalState "missing Sec-WebSocket-Key")
  | some key =>
    transfer (Io.writeAll c.deadline "write upgrade response"
      (Utf8.encode (Context.upgradeResponse key)))
    fun x => (.ok (), { x with
      context := { x.context with phase := .upgraded, attached := false }
      socket := some { writeDeadline := c.deadline } })

/-- Takes the request to its good end, unless it has come to another. -/
def complete : Act Unit := do
  let p := (← context).phase
  if p = .completed then return ()
  if p.isTerminal then throw (.illegalState ("cannot complete a request that is " ++ p.name))
  setPhase .completed

/-- Drops the transport, unless a WebSocket has it. -/
def abort : Act Unit :=
  modify fun c => if c.phase = .upgraded then c else { c with phase := .aborted, attached := false }

/-- Cancels the token of the request. -/
def cancelToken : Act Unit := fun x =>
  (.ok (), { x with wire := { x.wire with clock := x.wire.clock.cancel x.context.token } })

/-- Gives up a request for which time has run out; one that is over stays as it is. -/
def markTimedOut : Act Unit := do
  cancelToken
  modify fun c => if c.phase.isTerminal then c else { c with phase := .timedOut }

/-- Starts the time of the request anew; its token stays. -/
def resetTimeout (timeout : Int) : Act Unit := do
  let now ← clock
  modify fun c => { c with deadline := (Deadline.ofTimeout now timeout).withCancel c.token }

/-! ## The WebSocket -/

/-- Uses the WebSocket that the request has become. -/
def socket {α : Type} (call : WebSocket.Call α) : Act α := fun x =>
  match x.socket with
  | none => (.error (.illegalState "request is not upgraded"), x)
  | some s =>
    let (r, (s, wire)) := call (s, x.wire)
    (r, { x with socket := some s, wire })

end Act

end ScriptHost
