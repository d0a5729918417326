import ScriptHost.Json.Decoder
/-!
# Configuration of sockets
-/

set_option autoImplicit false

namespace ScriptHost

/-- The protocols that a socket can speak. -/
inductive SocketProtocol where
  | tcp
  | udp
deriving DecidableEq, Repr, Inhabited

/-- Whether a socket turns to somebody else or waits for others. -/
inductive SocketMode where
  | dial
  | listen
deriving DecidableEq, Repr, Inhabited

namespace SocketProtocol

/-- The name of a protocol in configurations. -/
def name : SocketProtocol → String
  | tcp => "tcp"
  | udp => "udp"

/-- Reads the name of a protocol. -/
def decode : Json.Decoder SocketProtocol := Json.variant [("tcp", tcp), ("udp", udp)]

end SocketProtocol

namespace SocketMode

/-- The name of a mode in configurations. -/
def name : SocketMode → String
  | dial => "dial"
  | listen => "listen"

/-- Reads the name of a mode. -/
def decode : Json.Decoder SocketMode := Json.variant [("dial", dial), ("listen", listen)]

end SocketMode

/-- What a socket is made from. -/
structure SocketConfig where
  protocol : SocketProtocol
  mode : SocketMode
  host : String
  port : Nat
deriving DecidableEq, Repr

namespace SocketConfig

/-- What a caller waits for who dials, in messages. -/
def connectTo (host : String) (port : Nat) : String := "connect to " ++ host ++ ":" ++ toString port

/-- What a socket that listens is shared under: its address. -/
def signature (c : SocketConfig) : String :=
  c.protocol.name ++ "/" ++ c.host ++ ":" ++ toString c.port

/-- A configuration of which only a part has been read. -/
structure Draft where
  protocol : Option SocketProtocol := none
  mode : Option SocketMode := none
  host : String := "127.0.0.1"
  port : Option Nat := none

/-- The fields of the configuration, of which all but the host have to be there. -/
def shape : Json.Shape Draft where
  name := "SocketConfig"
  fields := [
    { name := "protocol", needed := true
      read := fun t d => do return { d with protocol := some (← SocketProtocol.decode t) } },
    { name := "mode", needed := true
      read := fun t d => do return { d with mode := some (← SocketMode.decode t) } },
    { name := "host", needed := false
      read := fun t d => do return { d with host := ← Json.string t } },
    { name := "port", needed := true
      read := fun t d => do return { d with port := some (← Json.word16 t) } }]

/-- Reads the configuration. -/
def decode : Json.Decoder SocketConfig := fun t => do
  let d ← shape.decode false {} t
  return {
    protocol := ← Json.required "protocol" d.protocol
    mode := ← Json.required "mode" d.mode
    host := d.host
    port := ← Json.required "port" d.port }

/-- The configuration as JSON, with all of its fields. -/
def toJson (c : SocketConfig) : Json :=
  .ofFields [("protocol", .str c.protocol.name), ("mode", .str c.mode.name), ("host", .str c.host),
    ("port", .int c.port)]

end SocketConfig

end ScriptHost
