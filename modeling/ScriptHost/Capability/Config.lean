import ScriptHost.Capability.Kind
import ScriptHost.Http.Config
import ScriptHost.Socket.Config
import ScriptHost.Text.Blank
/-!
# Configuration of capabilities

What a script passes when it asks for a capability, by kind, and the settings that are fixed when a
registry is built.
-/

set_option autoImplicit false

namespace ScriptHost

/-! ## Settings of a registry -/

/-- The defaults for capabilities whose own configuration says nothing. -/
structure RegistryConfig where
  defaultQueueCapacity : Nat := 1024
  pipeCapacity : Nat := 99
  subscriberCapacity : Nat := 1024
  databasePoolSize : Nat := 4
  /-- How often caches are swept in the background; if it is absent or zero, they are not. -/
  cacheSweepIntervalMs : Option Nat := none
deriving DecidableEq, Repr, Inhabited

namespace RegistryConfig

/-- The fields of the configuration, none of which has to be there. -/
def shape : Json.Shape RegistryConfig where
  name := "RegistryConfig"
  fields := [
    { name := "default_queue_capacity", needed := false
      read := fun t c => do return { c with defaultQueueCapacity := ← Json.size t } },
    { name := "pipe_capacity", needed := false
      read := fun t c => do return { c with pipeCapacity := ← Json.size t } },
    { name := "subscriber_capacity", needed := false
      read := fun t c => do return { c with subscriberCapacity := ← Json.size t } },
    { name := "database_pool_size", needed := false
      read := fun t c => do return { c with databasePoolSize := ← Json.size t } },
    { name := "cache_sweep_interval_ms", needed := false
      read := fun t c => do
        return { c with cacheSweepIntervalMs := ← Json.optional Json.word64 t } }]

/-- Reads the configuration, on top of the defaults. -/
def decode (fromText : Bool) : Json.Decoder RegistryConfig := shape.decode fromText {}

/-- The configuration as JSON, with all of its fields. -/
def toJson (c : RegistryConfig) : Json :=
  .ofFields [("default_queue_capacity", .int c.defaultQueueCapacity),
    ("pipe_capacity", .int c.pipeCapacity),
    ("subscriber_capacity", .int c.subscriberCapacity),
    ("database_pool_size", .int c.databasePoolSize),
    ("cache_sweep_interval_ms", (c.cacheSweepIntervalMs.map fun ms => .int ms).getD .null)]

end RegistryConfig

/-! ## Queues -/

/-- A queue by its name. -/
structure QueueConfig where
  name : String
  /-- Counts when the name is seen for the first time. -/
  capacity : Option Nat := none
deriving DecidableEq, Repr

namespace QueueConfig

/-- What has been read of a configuration so far. -/
structure Draft where
  name : Option String := none
  capacity : Option Nat := none

/-- The fields of the configuration, of which the name has to be there. -/
def shape : Json.Shape Draft where
  name := "QueueConfig"
  fields := [
    { name := "name", needed := true
      read := fun t d => do return { d with name := some (← Json.string t) } },
    { name := "capacity", needed := false
      read := fun t d => do return { d with capacity := ← Json.optional Json.size t } }]

/-- Reads the configuration. -/
def decode : Json.Decoder QueueConfig := fun t => do
  let d ← shape.decode false {} t
  return { name := ← Json.required "name" d.name, capacity := d.capacity }

/-- The configuration as JSON, with all of its fields. -/
def toJson (c : QueueConfig) : Json :=
  .ofFields [("name", .str c.name), ("capacity", (c.capacity.map fun n => .int n).getD .null)]

end QueueConfig

/-! ## What goes by name alone -/

/-- A capability that needs nothing but a name. -/
structure NamedConfig where
  name : String := "default"
deriving DecidableEq, Repr

namespace NamedConfig

/-- The only field. -/
def shape : Json.Shape NamedConfig where
  name := "NamedConfig"
  fields := [{ name := "name", needed := false, read := fun t _ => do return ⟨← Json.string t⟩ }]

/-- Reads the configuration, on top of the default name. -/
def decode : Json.Decoder NamedConfig := shape.decode false {}

/-- The configuration as JSON. -/
def toJson (c : NamedConfig) : Json := .ofFields [("name", .str c.name)]

end NamedConfig

/-! ## Databases -/

/-- A database by its driver and its connection. -/
structure DatabaseConfig where
  driver : String
  connection : String
  /-- Counts when the database is opened for the first time. -/
  poolSize : Option Nat := none
deriving DecidableEq, Repr

namespace DatabaseConfig

/-- What has been read of a configuration so far. -/
structure Draft where
  driver : Option String := none
  connection : Option String := none
  poolSize : Option Nat := none

/-- The fields of the configuration, of which the driver and the connection have to be there. -/
def shape : Json.Shape Draft where
  name := "DatabaseConfig"
  fields := [
    { name := "driver", needed := true
      read := fun t d => do return { d with driver := some (← Json.string t) } },
    { name := "connection", needed := true
      read := fun t d => do return { d with connection := some (← Json.string t) } },
    { name := "pool_size", needed := false
      read := fun t d => do return { d with poolSize := ← Json.optional Json.size t } }]

/-- Reads the configuration. -/
def decode : Json.Decoder DatabaseConfig := fun t => do
  let d ← shape.decode false {} t
  return {
    driver := ← Json.required "driver" d.driver
    connection := ← Json.required "connection" d.connection
    poolSize := d.poolSize }

/-- The configuration as JSON, with all of its fields. -/
def toJson (c : DatabaseConfig) : Json :=
  .ofFields [("driver", .str c.driver), ("connection", .str c.connection),
    ("pool_size", (c.poolSize.map fun n => .int n).getD .null)]

/-- What a database is shared under: its driver, whose case does not count, and its connection. -/
def signature (c : DatabaseConfig) : String := Text.lower c.driver ++ "\x00" ++ c.connection

end DatabaseConfig

/-! ## Configuration by kind -/

/-- What a capability is asked for with, by its kind. -/
inductive CapabilityConfig where
  | queue (c : QueueConfig)
  | pipe (c : NamedConfig)
  | lock (c : NamedConfig)
  | cache (c : NamedConfig)
  | eventBus (c : NamedConfig)
  | database (c : DatabaseConfig)
  | httpClient (c : HttpClientConfig)
  | socket (c : SocketConfig)
deriving DecidableEq, Repr

namespace CapabilityConfig

/-- The kind that is asked for. -/
def kind : CapabilityConfig → CapabilityKind
  | queue _ => .queue
  | pipe _ => .pipe
  | lock _ => .lock
  | cache _ => .cache
  | eventBus _ => .eventBus
  | database _ => .database
  | httpClient _ => .httpClient
  | socket _ => .socket

/-- Reads the configuration of a kind. -/
def decode : CapabilityKind → Json.Decoder CapabilityConfig
  | .queue, t => (QueueConfig.decode t).map queue
  | .pipe, t => (NamedConfig.decode t).map pipe
  | .lock, t => (NamedConfig.decode t).map lock
  | .cache, t => (NamedConfig.decode t).map cache
  | .eventBus, t => (NamedConfig.decode t).map eventBus
  | .database, t => (DatabaseConfig.decode t).map database
  | .httpClient, t => (HttpClientConfig.decode t).map httpClient
  | .socket, t => (SocketConfig.decode t).map socket

/-- Reads the configuration that a script has passed for a kind. -/
def ofJson (kind : CapabilityKind) (config : Json) : Outcome CapabilityConfig :=
  match Json.decodeValue (decode kind) config with
  | .ok c => .ok c
  | .error fault => .error (.illegalState
    ("invalid " ++ kind.name ++ " configuration: " ++ fault.message?.getD ""))

/-- The configuration as JSON, without its kind. -/
def toJson : CapabilityConfig → Json
  | queue c => c.toJson
  | pipe c => c.toJson
  | lock c => c.toJson
  | cache c => c.toJson
  | eventBus c => c.toJson
  | database c => c.toJson
  | httpClient c => c.toJson
  | socket c => c.toJson

/-- The key under which what is asked for is shared.  Locks are no resources of their own, they all
live in one table; and a socket that dials is never shared. -/
def key? : CapabilityConfig → Option CapabilityKey
  | queue c => some ⟨.queue, c.name⟩
  | pipe c => some ⟨.pipe, c.name⟩
  | lock _ => none
  | cache c => some ⟨.cache, c.name⟩
  | eventBus c => some ⟨.eventBus, c.name⟩
  | database c => some ⟨.database, c.signature⟩
  | httpClient c => some ⟨.httpClient, c.signature⟩
  | socket c =>
    match c.mode with
    | .dial => none
    | .listen => some ⟨.socket, c.signature⟩

end CapabilityConfig

end ScriptHost
