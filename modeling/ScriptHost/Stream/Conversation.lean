import ScriptHost.Stream.Request
/-!
# Conversations

A request together with the client at the other end of its connection, who may send more, send no
more, or go away while the request is being handled.
-/

set_option autoImplicit false

namespace ScriptHost

/-- A request, with the client at the other side. -/
structure Conversation where
  exchange : Exchange
  /-- Whether the client still sends. -/
  writes : Bool := true
  /-- Whether the client has gone away. -/
  dropped : Bool := false

namespace Conversation

/-- A conversation about a request whose body is on its way. -/
def start (head : Head) (timeout : Int) (transport : Transport) : Conversation :=
  let wire : Wire := { transport }
  { exchange := { context := Context.new wire.clock head timeout ⟨1⟩ ⟨1⟩, wire },
    writes := !transport.ended }

/-- Changes the transport between the two. -/
def onTransport (c : Conversation) (f : Transport → Transport) : Conversation :=
  let wire := { c.exchange.wire with transport := f c.exchange.wire.transport }
  { c with exchange := { c.exchange with wire } }

/-- The client sends data, which nobody takes once the request has let go of its transport. -/
def clientSend (c : Conversation) (data : Bytes) : Except IoFault Nat × Conversation :=
  if !c.writes then (.error ⟨.brokenPipe, "write side closed"⟩, c)
  else if !data.isEmpty && !c.exchange.context.attached && c.exchange.socket.isNone then
    (.error Transport.peerGone, c)
  else (.ok data.length, c.onTransport (·.deliver c.exchange.wire.clock.now data))

/-- The client sends nothing any more, and still reads. -/
def clientClose (c : Conversation) : Conversation :=
  { c.onTransport (·.close) with writes := false }

/-- The client goes away. -/
def clientDrop (c : Conversation) : Conversation :=
  { c.onTransport (·.abandon) with writes := false, dropped := true }

/-- The handler makes a call on its request. -/
def call (c : Conversation) (r : Request.Call) : Outcome Request.Reply × Conversation :=
  let (reply, exchange) := Request.call c.exchange r
  (reply, { c with exchange })

/-- What the client has got, if it is still there. -/
def received? (c : Conversation) : Option Bytes :=
  if c.dropped then none else some c.exchange.wire.transport.sent

end Conversation

end ScriptHost
