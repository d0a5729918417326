import ScriptHost.Capability.Config
/-!
# Configuration of the host
-/

set_option autoImplicit false

namespace ScriptHost

/-- A route of the host: a request whose path fits the pattern runs the handler with the route's
name. -/
structure RouteConfig where
  name : String
  pattern : String
  /-- The only method that is accepted; if there is none, any is. -/
  method : Option String := none
deriving DecidableEq, Repr

namespace RouteConfig

/-- What has been read of a configuration so far. -/
structure Draft where
  name : Option String := none
  pattern : Option String := none
  method : Option String := none

/-- The fields of the configuration, of which the name and the pattern have to be there. -/
def shape : Json.Shape Draft where
  name := "RouteConfig"
  fields := [
    { name := "name", needed := true
      read := fun t d => do return { d with name := some (← Json.string t) } },
    { name := "pattern", needed := true
      read := fun t d => do return { d with pattern := some (← Json.string t) } },
    { name := "method", needed := false
      read := fun t d => do return { d with method := ← Json.optional Json.string t } }]

/-- Reads the configuration. -/
def decode (fromText : Bool) : Json.Decoder RouteConfig := fun t => do
  let d ← shape.decode fromText {} t
  return {
    name := ← Json.required "name" d.name
    pattern := ← Json.required "pattern" d.pattern
    method := d.method }

/-- The configuration as JSON, with all of its fields. -/
def toJson (c : RouteConfig) : Json :=
  .ofFields [("name", .str c.name), ("pattern", .str c.pattern), ("method", Json.ofOption c.method)]

end RouteConfig

/-- The configuration of a host. -/
structure HostConfig where
  /-- How many handlers may run at once; zero counts as one. -/
  workers : Nat := 8
  /-- How long a request may take, in milliseconds; a negative number is no limit. -/
  serviceTimeoutMs : Int := 60000
  /-- What paths begin with; it is taken off before a route is looked for. -/
  routePrefix : String := "/service/"
  routes : List RouteConfig := []
  registry : RegistryConfig := {}
deriving DecidableEq, Repr

namespace HostConfig

/-- The fields of the configuration, none of which has to be there. -/
def shape (fromText : Bool) : Json.Shape HostConfig where
  name := "RuntimeConfig"
  fields := [
    { name := "workers", needed := false
      read := fun t c => do return { c with workers := ← Json.size t } },
    { name := "service_timeout_ms", needed := false
      read := fun t c => do return { c with serviceTimeoutMs := ← Json.int64 t } },
    { name := "route_prefix", needed := false
      read := fun t c => do return { c with routePrefix := ← Json.string t } },
    { name := "routes", needed := false
      read := fun t c => do
        return { c with routes := ← Json.list (RouteConfig.decode fromText) t } },
    { name := "registry", needed := false
      read := fun t c => do return { c with registry := ← RegistryConfig.decode fromText t } }]

/-- Reads the configuration, on top of the defaults. -/
def decode (fromText : Bool) : Json.Decoder HostConfig := (shape fromText).decode fromText {}

/-- Reads the configuration in a text. -/
def ofText (text : String) : Except Json.DecodeFault HostConfig :=
  Json.decodeText (decode true) text

/-- The configuration as JSON, with all of its fields. -/
def toJson (c : HostConfig) : Json :=
  .ofFields [("workers", .int c.workers), ("service_timeout_ms", .int c.serviceTimeoutMs),
    ("route_prefix", .str c.routePrefix), ("routes", .arr (c.routes.map RouteConfig.toJson)),
    ("registry", c.registry.toJson)]

end HostConfig

end ScriptHost
