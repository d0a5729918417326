import ScriptHost.Bus.Session
import ScriptHost.Cache
import ScriptHost.Capability.Config
import ScriptHost.Capability.Slots
import ScriptHost.Database.Basic
import ScriptHost.Database.Store
import ScriptHost.Http.Client
import ScriptHost.LockTable
import ScriptHost.Queue
/-!
# The registry of capabilities

A registry hands out capabilities by kind and configuration.  A capability is a handle: the resource
behind it is built on the first request under its key and shared from then on.  Locks are no
resources of their own, they all live in one table; and a socket that dials is never shared.
-/

set_option autoImplicit false

namespace ScriptHost

/-! ## Handles -/

/-- A handle to a resource, by the number of the resource. -/
inductive Capability where
  | queue (id : Nat)
  | pipe (id : Nat)
  | lock (name : String)
  | cache (id : Nat)
  | eventBus (id : Nat)
  | database (id : Nat)
  | httpClient (id : Nat)
  | listener (id : Nat)
  | connection (id : Nat)
  | datagrams (id : Nat)
deriving DecidableEq, Repr, Inhabited

namespace Capability

/-- The kind of a capability. -/
def kind : Capability → CapabilityKind
  | queue _ => .queue
  | pipe _ => .pipe
  | lock _ => .lock
  | cache _ => .cache
  | eventBus _ => .eventBus
  | database _ => .database
  | httpClient _ => .httpClient
  | listener _ | connection _ | datagrams _ => .socket

/-- The number of the resource behind a capability; a lock has none. -/
def id? : Capability → Option Nat
  | lock _ => none
  | queue id | pipe id | cache id | eventBus id | database id | httpClient id | listener id
  | connection id
  | datagrams id => some id

/-- What a capability can be used as; pipes are used as queues. -/
def view : Capability → String
  | queue _ | pipe _ => "queue"
  | lock _ => "lock"
  | cache _ => "cache"
  | eventBus _ => "event-bus"
  | database _ => "database"
  | httpClient _ => "http-client"
  | listener _ => "tcp-listener"
  | connection _ => "tcp-connection"
  | datagrams _ => "udp"

end Capability

/-! ## Taking what is found -/

/-- What is under a key is not what belongs there. -/
def mismatch (expected : CapabilityKind) (found : Capability) : Failure :=
  .illegalState ("registry entry for " ++ expected.name ++ " holds a " ++ found.kind.name)

/-- What a caller takes for that which has been found for a configuration.  A queue and a pipe can
be taken for each other. -/
def CapabilityConfig.expect : CapabilityConfig → Capability → Outcome Capability
  | .queue _, .queue id | .queue _, .pipe id => .ok (.queue id)
  | .pipe _, .queue id | .pipe _, .pipe id => .ok (.pipe id)
  | .queue _, found | .pipe _, found => .error (mismatch .queue found)
  | .cache _, .cache id => .ok (.cache id)
  | .cache _, found => .error (mismatch .cache found)
  | .eventBus _, .eventBus id => .ok (.eventBus id)
  | .eventBus _, found => .error (mismatch .eventBus found)
  | .database _, .database id => .ok (.database id)
  | .database _, found => .error (mismatch .database found)
  | .httpClient _, .httpClient id => .ok (.httpClient id)
  | .httpClient _, found => .error (mismatch .httpClient found)
  | .lock _, found | .socket _, found => .ok found

/-! ## Resources -/

/-- What a registry has built.  The listeners of a bus leave entries `ε` in its log. -/
inductive Resource (ε : Type) where
  | queue (m : Monitor.Machine (Queue.protocol Value))
  | cache (c : Cache Value)
  | eventBus (s : Bus.Session Value ε)
  | database (db : Database Database.Store.engine)
  | httpClient (c : HttpClient)
  | socket (c : SocketConfig)

/-- Everything that capabilities refer to. -/
structure Registry (ε : Type) where
  config : RegistryConfig := {}
  clock : Clock := {}
  locks : Monitor.Machine LockTable.protocol := { state := {} }
  table : SlotTable CapabilityKey Capability := {}
  resources : List (Resource ε) := []
  /-- Which databases can be opened. -/
  reachable : Database.Target → Bool

namespace Registry

variable {ε : Type}

/-- How many shared resources have been built. -/
def size (r : Registry ε) : Nat := r.table.count

/-- The resource with a number. -/
def resource? (r : Registry ε) (id : Nat) : Option (Resource ε) := r.resources[id]?

/-- Puts another resource in the place of one. -/
def setResource (r : Registry ε) (id : Nat) (x : Resource ε) : Registry ε :=
  { r with resources := r.resources.set id x }

/-- Keeps a resource, whose number is the next one. -/
def keep (r : Registry ε) (handle : Nat → Capability) (x : Resource ε) :
    Outcome Capability × Registry ε :=
  (.ok (handle r.resources.length), { r with resources := r.resources ++ [x] })

/-! ## Building -/

/-- Whether somebody listens where a socket dials. -/
def answers (r : Registry ε) (c : SocketConfig) : Bool :=
  r.resources.any fun
    | .socket l => l = { c with mode := .listen }
    | _ => false

/-- Where nobody listens a connection is refused; datagrams need nobody to receive them. -/
def openSocket (r : Registry ε) (c : SocketConfig) : Outcome Capability × Registry ε :=
  match c.protocol, c.mode with
  | .tcp, .listen => r.keep .listener (.socket c)
  | .udp, .listen => r.keep .datagrams (.socket c)
  | .tcp, .dial =>
    if r.answers c then r.keep .connection (.socket c)
    else (.error (.external (SocketConfig.connectTo c.host c.port) .unstated), r)
  | .udp, .dial => r.keep .datagrams (.socket c)

/-- Builds what a configuration asks for.  A lock is there already. -/
def build (r : Registry ε) : CapabilityConfig → Outcome Capability × Registry ε
  | .queue c =>
    r.keep .queue
      (.queue { state := { capacity := c.capacity.getD r.config.defaultQueueCapacity } })
  | .pipe _ => r.keep .pipe (.queue { state := { capacity := r.config.pipeCapacity } })
  | .lock c => (.ok (.lock c.name), r)
  | .cache _ =>
    match r.config.cacheSweepIntervalMs.filter (0 < ·) with
    | none => r.keep .cache (.cache {})
    | some ms =>
      match Cache.startSweeper r.clock {} ms with
      | .ok c => r.keep .cache (.cache c)
      | .error e => (.error e, r)
  | .eventBus _ => r.keep .eventBus (.eventBus { bus := .new r.config.subscriberCapacity })
  | .database c =>
    let poolSize := c.poolSize.getD r.config.databasePoolSize
    let store (target : Database.Target) : Database.Store := { reachable := r.reachable target }
    let E := Database.Store.engine
    match Database.open (E := E) r.clock c.driver c.connection poolSize store with
    | .ok db => r.keep .database (.database db)
    | .error e => (.error e, r)
  | .httpClient c =>
    match HttpClient.connect c with
    | .ok client => r.keep .httpClient (.httpClient client)
    | .error e => (.error e, r)
  | .socket c => r.openSocket c

/-! ## Finding -/

/-- What is under a key, built if nothing is. -/
def shared (r : Registry ε) (key : CapabilityKey)
    (build : Registry ε → Outcome Capability × Registry ε) :
    Outcome Capability × Registry ε :=
  let (c, table, r) := r.table.shared key build r
  (c, { r with table })

/-- What there is for a configuration.  Where others share it, what the configuration says besides
its key counts on the first request. -/
def resolve (r : Registry ε) (c : CapabilityConfig) : Outcome Capability × Registry ε :=
  match c.key? with
  | some key => r.shared key (·.build c)
  | none => r.build c

/-- The capability of a configuration. -/
def obtain (r : Registry ε) (c : CapabilityConfig) : Outcome Capability × Registry ε :=
  let (found, r) := r.resolve c
  (found.bind c.expect, r)

/-- The queue with a name. -/
def queue (r : Registry ε) (name : String) (capacity : Option Nat) :
    Outcome Capability × Registry ε :=
  r.obtain (.queue { name, capacity })

/-- The pipe with a name. -/
def pipe (r : Registry ε) (name : String) : Outcome Capability × Registry ε :=
  r.obtain (.pipe { name })

/-- The cache with a name. -/
def cache (r : Registry ε) (name : String) : Outcome Capability × Registry ε :=
  r.obtain (.cache { name })

/-- The event bus with a name. -/
def eventBus (r : Registry ε) (name : String) : Outcome Capability × Registry ε :=
  r.obtain (.eventBus { name })

/-- The database of a driver and a connection. -/
def database (r : Registry ε) (c : DatabaseConfig) : Outcome Capability × Registry ε :=
  r.obtain (.database c)

/-- A client for HTTP. -/
def httpClient (r : Registry ε) (c : HttpClientConfig) : Outcome Capability × Registry ε :=
  r.obtain (.httpClient c)

/-- A socket. -/
def socket (r : Registry ε) (c : SocketConfig) : Outcome Capability × Registry ε :=
  r.obtain (.socket c)

/-- A new socket that dials one of the registry. -/
def dial (r : Registry ε) (target : Capability) : Outcome Capability × Registry ε :=
  match target.id?.bind r.resource? with
  | some (.socket c) => r.socket { c with mode := .dial }
  | _ => (.error (.illegalState "not a socket"), r)

/-- The capability that a script asks for by the name of a kind. -/
def resolveNamed (r : Registry ε) (kind : String) (config : Json) :
    Outcome Capability × Registry ε :=
  match CapabilityKind.ofName kind with
  | .error e => (.error e, r)
  | .ok kind =>
    match CapabilityConfig.ofJson kind config with
    | .error e => (.error e, r)
    | .ok c => r.obtain c

end Registry

end ScriptHost
