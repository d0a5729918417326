import ScriptHost.Failure
import ScriptHost.Value.Json
/-!
# Envelopes

The response that the host writes for a handler.  Texts and bytes are sent as they are; any other
value is wrapped with the code `0`, and a failure with the code `1`.
-/

set_option autoImplicit false

namespace ScriptHost

/-- A whole response: the status, the type of the body and the body. -/
structure Envelope where
  status : Nat
  contentType : String
  body : Bytes
deriving DecidableEq, Repr

namespace Envelope

/-- The type of a body that is written as JSON. -/
def jsonType : String := "application/json"

/-- The type of a body that is a text. -/
def plainType : String := "text/plain; charset=utf-8"

/-- The response for a value. -/
def success : Value → Envelope
  | .str s => ⟨200, plainType, Utf8.encode s⟩
  | .bytes b => ⟨200, "application/octet-stream", b⟩
  | v => ⟨200, jsonType, Utf8.encode (Json.ofFields
      [("code", .str "0"), ("message", .str "success"), ("data", v.toJson)]).text⟩

/-- A failure whose text only a collaborator knows is written without it. -/
def failure (f : Failure) : Envelope :=
  ⟨400, jsonType, Utf8.encode (Json.ofFields
    [("code", .str "1"), ("kind", .str f.kind.name), ("message", .str (f.message?.getD ""))]).text⟩

/-- What is answered for a handler that has returned. -/
def ofReturn : Outcome Value → Envelope
  | .ok v => success v
  | .error f => failure f

end Envelope

end ScriptHost
