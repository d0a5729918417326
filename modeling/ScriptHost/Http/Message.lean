import ScriptHost.Deadline
import ScriptHost.Failure
import ScriptHost.Json.Reader
import ScriptHost.Text.Blank
import ScriptHost.Text.Quoted
import ScriptHost.Value.Json
/-!
# Requests and responses of HTTP

What a script sends to a server and gets back.  Headers are a record by their exact names; only
looking one up ignores the case of ASCII letters.
-/

set_option autoImplicit false

namespace ScriptHost

/-- The methods that a request can have. -/
inductive HttpMethod where
  | get
  | post
  | put
  | delete
  | patch
  | head
  | options
deriving DecidableEq, Repr, Inhabited

namespace HttpMethod

/-- All methods, in the order in which messages list them. -/
def all : List HttpMethod := [get, post, put, delete, patch, head, options]

/-- The name of a method, which is also what is sent. -/
def name : HttpMethod → String
  | get => "GET"
  | post => "POST"
  | put => "PUT"
  | delete => "DELETE"
  | patch => "PATCH"
  | head => "HEAD"
  | options => "OPTIONS"

/-- Blanks around a method and its case do not count. -/
def ofName (text : String) : Outcome HttpMethod :=
  let name := Text.upper (Text.trim text)
  match all.find? (·.name = name) with
  | some m => .ok m
  | none => .error (.illegalState ("unsupported http method " ++ Text.quoted name))

end HttpMethod

/-! ## Requests -/

/-- A request as it is handed to the transport. -/
structure HttpRequest where
  method : HttpMethod := .get
  url : String
  headers : Record String := []
  body : Option Bytes := none
  /-- How long the transport may take, in milliseconds. -/
  timeout : Option Nat := none
deriving DecidableEq, Repr, Inhabited

/-- The first value under a name; the case of ASCII letters does not count. -/
def HttpRequest.header? (r : HttpRequest) (name : String) : Option String :=
  (r.headers.find? (Text.sameIgnoringCase ·.1 name)).map (·.2)

/-! ## Responses -/

/-- A response as callers get it. -/
structure HttpResponse where
  status : Nat
  headers : Record String := []
  data : Bytes := []
deriving DecidableEq, Repr, Inhabited

namespace HttpResponse

/-- Whether the status says that the request has succeeded. -/
def isSuccess (r : HttpResponse) : Bool := 200 ≤ r.status && r.status < 300

/-- The body as text; what is no UTF-8 is replaced. -/
def text (r : HttpResponse) : String := Utf8.decodeLossy r.data

/-- The body as a value, if it is JSON. -/
def json (r : HttpResponse) : Outcome Value :=
  match Json.parseBytes r.data with
  | .ok j => .ok (.ofJson j)
  | .error _ => .error (.external "decode response body as json" .unstated)

/-- What a script is handed. -/
def toValue (r : HttpResponse) : Value :=
  .ofFields [("status", .int r.status),
    ("header", .map (r.headers.map fun (name, value) => (name, .str value))),
    ("data", .bytes r.data)]

end HttpResponse

end ScriptHost
