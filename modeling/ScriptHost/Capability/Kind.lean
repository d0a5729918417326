import ScriptHost.Failure
import ScriptHost.Json.Decoder
/-!
# Kinds of capabilities

What a script can ask for, by name, and the keys under which what it gets is shared: two requests
with one key mean the same resource.
-/

set_option autoImplicit false

namespace ScriptHost

/-- What a capability can be. -/
inductive CapabilityKind where
  | queue
  | lock
  | cache
  | eventBus
  | pipe
  | database
  | httpClient
  | socket
deriving DecidableEq, Repr, Inhabited

namespace CapabilityKind

/-- All kinds, in the order in which messages list them. -/
def all : List CapabilityKind := [queue, lock, cache, eventBus, pipe, database, httpClient, socket]

/-- The name of a kind in configurations and messages. -/
def name : CapabilityKind → String
  | queue => "queue"
  | lock => "lock"
  | cache => "cache"
  | eventBus => "event-bus"
  | pipe => "pipe"
  | database => "database"
  | httpClient => "http-client"
  | socket => "socket"

/-- The kind with a name. -/
def ofName (name : String) : Outcome CapabilityKind :=
  match all.find? (·.name = name) with
  | some kind => .ok kind
  | none => .error (.illegalState ("unknown capability kind " ++ Text.quoted name))

/-- Reads the name of a kind. -/
def decode : Json.Decoder CapabilityKind := Json.variant (all.map fun kind => (kind.name, kind))

/-- The place of a kind among all. -/
def rank (kind : CapabilityKind) : Nat := all.idxOf kind

end CapabilityKind

/-- What capabilities are shared by. -/
structure CapabilityKey where
  kind : CapabilityKind
  signature : String
deriving DecidableEq, Repr, Inhabited

namespace CapabilityKey

/-- A key as it is shown. -/
def text (k : CapabilityKey) : String := k.kind.name ++ ":" ++ k.signature

/-- Keys are ordered by kind, and keys of one kind by signature. -/
def before (a b : CapabilityKey) : Bool :=
  a.kind.rank < b.kind.rank || (a.kind = b.kind && a.signature ≤ b.signature)

end CapabilityKey

end ScriptHost
