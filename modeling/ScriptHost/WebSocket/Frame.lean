import ScriptHost.Digest.Base64
import ScriptHost.Digest.Sha1
import ScriptHost.Text.Blank
import ScriptHost.Stream.Transport
/-!
# WebSocket frames

A frame carries a kind, a payload of at most 16 MiB and possibly a mask of four bytes.  This module
writes frames and reads them, and answers the key of an upgrade request.
-/

set_option autoImplicit false

namespace ScriptHost

namespace WebSocket

/-- What the server adds to the key of an upgrade request before it digests it. -/
def acceptSuffix : String := "258EAFA5-E914-47DA-95CA-C5AB0DC85B11"

/-- The answer to the key of an upgrade request. -/
def acceptKey (key : String) : String :=
  String.ofList (Base64.encode (Sha1.digest (Utf8.encode (Text.trim key ++ acceptSuffix))))

/-- The kinds of messages. -/
inductive Kind where
  | text
  | binary
  | close
  | ping
  | pong
deriving DecidableEq, Repr

namespace Kind

/-- All kinds. -/
def all : List Kind := [text, binary, close, ping, pong]

/-- The number of a kind in a frame. -/
def opcode : Kind → Nat
  | text => 1
  | binary => 2
  | close => 8
  | ping => 9
  | pong => 10

/-- The kind with a number. -/
def ofOpcode? (n : Nat) : Option Kind := all.find? (·.opcode = n)

/-- The name of a kind. -/
def name : Kind → String
  | text => "text"
  | binary => "binary"
  | close => "close"
  | ping => "ping"
  | pong => "pong"

/-- The kind with a name. -/
def named? (s : String) : Option Kind := all.find? (·.name = s)

/-- Whether a message of the kind is about the connection and not for the reader. -/
def isControl (k : Kind) : Bool := k = close || k = ping || k = pong

end Kind

/-- A whole message. -/
structure Message where
  kind : Kind
  data : Bytes
deriving DecidableEq, Repr

/-- A piece of a message as it stands in the stream. -/
structure Frame where
  final : Bool
  opcode : Nat
  payload : Bytes

/-- How many bytes a message may have. -/
def maxMessage : Nat := 16 * 1024 * 1024

/-! ## Writing -/

/-- The four bytes that a payload is masked with. -/
abbrev Mask := UInt8 × UInt8 × UInt8 × UInt8

/-- Combines bytes with the mask, over and over. -/
def applyMask : Mask → Bytes → Bytes
  | m, bytes => bytes.mapIdx fun i b =>
    b ^^^ (match i % 4 with | 0 => m.1 | 1 => m.2.1 | 2 => m.2.2.1 | _ => m.2.2.2)

/-- The bit of a frame that says that its payload is masked. -/
def maskBit (mask : Option Mask) : Nat := if mask.isSome then 0x80 else 0

/-- The length of a payload: up to 125 in the second byte itself, otherwise in two or eight bytes
behind it. -/
def lengthBytes (mask : Option Mask) (n : Nat) : Bytes :=
  if n < 126 then [(maskBit mask + n).toUInt8]
  else if n < 65536 then (maskBit mask + 126).toUInt8 :: Sha1.bigEndian 2 n
  else (maskBit mask + 127).toUInt8 :: Sha1.bigEndian 8 n

/-- A frame with any opcode. -/
def writeFrame (final : Bool) (opcode : Nat) (payload : Bytes) (mask : Option Mask) : Bytes :=
  ((if final then 0x80 else 0) + opcode).toUInt8 :: (lengthBytes mask payload.length ++
    match mask with
    | some m => [m.1, m.2.1, m.2.2.1, m.2.2.2] ++ applyMask m payload
    | none => payload)

/-- A whole message in one frame. -/
def encodeFrame (kind : Kind) (payload : Bytes) (mask : Option Mask) : Bytes :=
  writeFrame true kind.opcode payload mask

/-! ## Reading -/

/-- What is reported to have failed in a read. -/
def readOperation : String := "websocket read"

/-- The length of a payload, for which the second byte stands or announces two or eight more. -/
def readLength (d : Deadline) (n : Nat) : Io Nat := do
  if n = 126 then
    let bytes ← Io.readFull d readOperation 2
    return Sha1.ofBigEndian bytes
  else if n = 127 then
    let bytes ← Io.readFull d readOperation 8
    return Sha1.ofBigEndian bytes
  else return n

/-- The mask in front of a payload, if there is one. -/
def readMask (d : Deadline) (masked : Bool) : Io (Option Mask) := do
  if masked then
    match ← Io.readFull d readOperation 4 with
    | [a, b, c, e] => return some (a, b, c, e)
    | _ => return none
  else return none

/-- Reads one frame; one that is too long is refused before its mask and payload are read. -/
def readFrame (d : Deadline) : Io Frame := do
  let header ← Io.readFull d readOperation 2
  let first := (header.getD 0 0).toNat
  let second := (header.getD 1 0).toNat
  let length ← readLength d (second % 128)
  if maxMessage < length then
    throw (.exhausted ("websocket frame of " ++ toString length ++ " bytes"))
  let mask ← readMask d (128 ≤ second)
  let payload ← Io.readFull d readOperation length
  return {
    final := 128 ≤ first
    opcode := first % 16
    payload := match mask with | some m => applyMask m payload | none => payload }

end WebSocket

end ScriptHost
