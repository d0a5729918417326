import ScriptHost.Socket.Connection
import ScriptHost.Socket.Config
/-!
# Sockets that talk to one another

A small network in which every socket is known by its number: those who listen, the two ends of each
connection, and sockets for datagrams.  Whatever is sent is there at once.
-/

set_option autoImplicit false

namespace ScriptHost

/-- One end of a connection. -/
structure Loopback.End where
  connection : TcpConnection := {}
  transport : Transport := {}
  peer : Nat

/-- A socket for datagrams, which a dialled one exchanges with its peer only. -/
structure Loopback.Mailbox where
  peer : Option Nat := none
  /-- Datagrams that have not been read, each with its sender. -/
  received : List (Nat × Bytes) := []
  closed : Bool := false

/-- What can be reached on the loopback device. -/
inductive Loopback.Socket where
  /-- Somebody who listens, with the ends that nobody has accepted yet. -/
  | listener (backlog : List Nat)
  | connection (e : Loopback.End)
  | mailbox (m : Loopback.Mailbox)

/-- The sockets of a network and who is behind them. -/
structure Loopback where
  /-- Whether there is a way from one socket to another. -/
  routed : Bool := true
  clock : Clock := {}
  sockets : List Loopback.Socket := []
  /-- The numbers of the sockets that scripts have names for. -/
  names : Record Nat := []
  /-- The sockets that can be dialled by name. -/
  places : Record Nat := []

namespace Loopback

/-- Puts a socket in the place of one. -/
def set (n : Loopback) (id : Nat) (s : Socket) : Loopback :=
  { n with sockets := n.sockets.set id s }

/-- Opens a socket, whose number is the next one. -/
def openSocket (n : Loopback) (s : Socket) : Nat × Loopback :=
  (n.sockets.length, { n with sockets := n.sockets ++ [s] })

/-- Lets time pass until a deadline comes, if it ever does. -/
def waitFor (n : Loopback) (d : Deadline) : Loopback :=
  match d.expiry? n.clock with
  | some instant => { n with clock := n.clock.advanceTo instant }
  | none => n

/-! ## Connections -/

/-- Connects to a listener; where nobody listens, or there is no way to get there, it fails. -/
def dial (n : Loopback) (listener : Option Nat) (operation : String) (d : Deadline) :
    Outcome Nat × Loopback :=
  if d.remaining n.clock = some 0 then (.error (.timeout operation), n)
  else
    match listener, listener.bind (n.sockets[·]?), n.routed with
    | some id, some (.listener backlog), true =>
      let (mine, n) := n.openSocket (.connection { peer := n.sockets.length + 1 })
      let (theirs, n) := n.openSocket (.connection { peer := mine })
      (.ok mine, n.set id (.listener (backlog ++ [theirs])))
    | _, _, _ => (.error (.external operation .unstated), n)

/-- Accepts the oldest connection, and looks at the deadline only if there is none. -/
def accept (n : Loopback) (listener : Nat) (d : Deadline) : Outcome Nat × Loopback :=
  match n.sockets[listener]? with
  | some (.listener (first :: rest)) => (.ok first, n.set listener (.listener rest))
  | _ => (.error (.timeout "tcp accept"), n.waitFor d)

/-- Makes a call on a connection. -/
def onConnection {α : Type} (n : Loopback) (id : Nat) (call : TcpConnection.Call α) :
    Outcome α × Loopback :=
  match n.sockets[id]? with
  | some (.connection e) =>
    let (r, (connection, w)) := call (e.connection, { clock := n.clock, transport := e.transport })
    (r, { n with clock := w.clock }.set id
      (.connection { e with connection, transport := w.transport }))
  | _ => (.error (.illegalState "not a tcp connection"), n)

/-- Does something to what the peer of a connection receives. -/
def onPeer (n : Loopback) (id : Nat) (f : Transport → Transport) : Loopback :=
  match n.sockets[id]? with
  | some (.connection e) =>
    match n.sockets[e.peer]? with
    | some (.connection other) =>
      n.set e.peer (.connection { other with transport := f other.transport })
    | _ => n
  | _ => n

/-- Writes at one end what then arrives at the other. -/
def write (n : Loopback) (id : Nat) (data : Bytes) (d : Deadline) : Outcome Nat × Loopback :=
  match n.onConnection id (TcpConnection.write data d) with
  | (.ok count, n) => (.ok count, n.onPeer id (·.deliver n.clock.now data))
  | (.error e, n) => (.error e, n)

/-- The peer finds the end of the stream. -/
def close (n : Loopback) (id : Nat) : Loopback :=
  let n := n.onPeer id (·.close)
  match n.sockets[id]? with
  | some (.connection e) =>
    n.set id (.connection { e with connection := { e.connection with closed := true } })
  | _ => n

/-- Whether an end has been closed. -/
def isClosed (n : Loopback) (id : Nat) : Bool :=
  match n.sockets[id]? with
  | some (.connection e) => e.connection.closed
  | _ => false

/-! ## Datagrams -/

/-- Sends a datagram; without a target it goes to where the mailbox has been dialed to. -/
def send (n : Loopback) (id : Nat) (data : Bytes) (target : Option Nat) : Outcome Nat × Loopback :=
  match n.sockets[id]? with
  | some (.mailbox m) =>
    if m.closed then (.error (.illegalState "udp socket is closed"), n)
    else
      match target <|> m.peer with
      | none => (.error (.illegalState "listening udp socket needs a destination"), n)
      | some target =>
        if ¬n.routed then (.error (.external "i/o failure" .unstated), n)
        else
          match n.sockets[target]? with
          | some (.mailbox t) =>
            if t.peer.all (· = id) then
              let received := t.received ++ [(id, data)]
              (.ok data.length, n.set target (.mailbox { t with received }))
            else (.ok data.length, n)
          | _ => (.ok data.length, n)
  | _ => (.error (.illegalState "not a udp socket"), n)

/-- Receives a datagram, of which no more than `size` bytes are kept, and its sender. -/
def receive (n : Loopback) (id size : Nat) (d : Deadline) : Outcome (Nat × Bytes) × Loopback :=
  match n.sockets[id]? with
  | some (.mailbox m) =>
    if m.closed then (.error (.illegalState "udp socket is closed"), n)
    else if d.isExpired n.clock then (.error (.timeout "udp read"), n)
    else
      match m.received with
      | (sender, data) :: rest =>
        (.ok (sender, data.take (max size 1)), n.set id (.mailbox { m with received := rest }))
      | [] => (.error (.timeout "udp read"), n.waitFor d)
  | _ => (.error (.illegalState "not a udp socket"), n)

/-- Closes a mailbox, which cannot be used any more. -/
def closeMailbox (n : Loopback) (id : Nat) : Loopback :=
  match n.sockets[id]? with
  | some (.mailbox m) => n.set id (.mailbox { m with closed := true })
  | _ => n

/-! ## Sockets by name -/

/-- What can be asked of the device. -/
inductive Call where
  | listen
  | dial (target : String)
  | dialPort (port : Nat)
  | accept (on : String)
  | write (socket : String) (data : Bytes)
  | read (socket : String) (size : Nat)
  | readLine (socket : String)
  | close (socket : String)
  | isClosed (socket : String)
  | drop (socket : String)
  | openMailbox
  | dialMailbox (target : String)
  | send (socket : String) (data : Bytes) (target : Option String)
  | receive (socket : String) (size : Nat)
  | closeMailbox (socket : String)

/-- What is answered. -/
inductive Reply where
  | done
  | flag (b : Bool)
  | count (n : Nat)
  | bytes (data : Bytes)
  | datagram (data : Bytes) (sender : List String)

/-- The address of the device. -/
def address : String := "127.0.0.1"

/-- Dials and gives the new end a name. -/
def dialed (n : Loopback) (as : String) (target : Option Nat) (port : Nat) (d : Deadline) :
    Outcome Reply × Loopback :=
  match n.dial target (SocketConfig.connectTo address port) d with
  | (.ok id, n) => (.ok (.flag true), { n with names := Record.insert as id n.names })
  | (.error e, n) => (.error e, n)

/-- Opens a socket that can be dialled. -/
def openAs (n : Loopback) (as : String) (s : Socket) : Loopback :=
  let (id, n) := n.openSocket s
  { n with names := Record.insert as id n.names, places := Record.insert as id n.places }

/-- Makes a call; a socket that it opens is called `as`.  There is no reply if the call names a
socket that is not there. -/
def call (n : Loopback) (as : String) (d : Deadline) : Call → Option (Outcome Reply × Loopback)
  | .listen => some (.ok .done, n.openAs as (.listener []))
  | .openMailbox => some (.ok .done, n.openAs as (.mailbox {}))
  | .dial target => do return n.dialed as (some (← Record.get? n.places target)) 0 d
  | .dialPort port => some (n.dialed as none port d)
  | .dialMailbox target => do
    let peer ← Record.get? n.places target
    if ¬n.routed then return (.error (.external ("udp connect to " ++ address) .unstated), n)
    let (id, n) := n.openSocket (.mailbox { peer := some peer })
    return (.ok .done, { n with names := Record.insert as id n.names })
  | .accept on => do
    match n.accept (← Record.get? n.places on) d with
    | (.ok id, n) => return (.ok .done, { n with names := Record.insert as id n.names })
    | (.error e, n) => return (.error e, n)
  | .write socket data => do
    let (r, n) := n.write (← Record.get? n.names socket) data d
    return (r.map .count, n)
  | .read socket size => do
    let (r, n) := n.onConnection (← Record.get? n.names socket) (TcpConnection.read size d)
    return (r.map .bytes, n)
  | .readLine socket => do
    let (r, n) := n.onConnection (← Record.get? n.names socket) (TcpConnection.readLine d)
    return (r.map .bytes, n)
  | .close socket => do return (.ok .done, n.close (← Record.get? n.names socket))
  | .isClosed socket => do return (.ok (.flag (n.isClosed (← Record.get? n.names socket))), n)
  | .drop socket => do
    let n := n.close (← Record.get? n.names socket)
    return (.ok .done, { n with names := Record.erase socket n.names })
  | .send socket data none => do
    let (r, n) := n.send (← Record.get? n.names socket) data none
    return (r.map .count, n)
  | .send socket data (some target) => do
    let (r, n) := n.send (← Record.get? n.names socket) data (some (← Record.get? n.places target))
    return (r.map .count, n)
  | .receive socket size => do
    let (r, n) := n.receive (← Record.get? n.names socket) size d
    return (r.map fun (sender, data) => .datagram data
      (Record.names (n.names.filter (·.2 = sender))), n)
  | .closeMailbox socket => do return (.ok .done, n.closeMailbox (← Record.get? n.names socket))

end Loopback

end ScriptHost
