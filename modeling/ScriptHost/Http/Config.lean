import ScriptHost.Json.Decoder
/-!
# Configuration of HTTP clients

Two clients with equal configurations are the same capability.
-/

set_option autoImplicit false

namespace ScriptHost

/-- The configuration of a client. -/
structure HttpClientConfig where
  /-- The longest time a request may take, in milliseconds; zero is no limit. -/
  timeoutMs : Nat := 30000
  baseUrl : Option String := none
  headers : Record String := []
  proxy : Option String := none
  skipInsecureVerify : Bool := false
  followRedirects : Bool := true
deriving DecidableEq, Repr, Inhabited

namespace HttpClientConfig

/-- The fields of the configuration, none of which has to be there. -/
def shape : Json.Shape HttpClientConfig where
  name := "HttpClientConfig"
  fields := [
    { name := "timeout_ms", needed := false
      read := fun t c => do return { c with timeoutMs := ← Json.word64 t } },
    { name := "base_url", needed := false
      read := fun t c => do return { c with baseUrl := ← Json.optional Json.string t } },
    { name := "headers", needed := false
      read := fun t c => do return { c with headers := ← Json.map Json.string t } },
    { name := "proxy", needed := false
      read := fun t c => do return { c with proxy := ← Json.optional Json.string t } },
    { name := "skip_insecure_verify", otherNames := ["isSkipInsecureVerify"], needed := false
      read := fun t c => do return { c with skipInsecureVerify := ← Json.boolean t } },
    { name := "follow_redirects", needed := false
      read := fun t c => do return { c with followRedirects := ← Json.boolean t } }]

/-- Reads the configuration, on top of the defaults. -/
def decode : Json.Decoder HttpClientConfig := shape.decode false {}

/-- The configuration as JSON, with all of its fields. -/
def toJson (c : HttpClientConfig) : Json :=
  .ofFields [("timeout_ms", .int c.timeoutMs), ("base_url", Json.ofOption c.baseUrl),
    ("headers", .obj (c.headers.map fun (name, value) => (name, .str value))),
    ("proxy", Json.ofOption c.proxy),
    ("skip_insecure_verify", .bool c.skipInsecureVerify),
    ("follow_redirects", .bool c.followRedirects)]

/-- What clients of one configuration are shared by. -/
def signature (c : HttpClientConfig) : String := c.toJson.text

end HttpClientConfig

end ScriptHost
