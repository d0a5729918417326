import ScriptHost.Http.Client
import ScriptHost.Stream.Head
/-!
# Requests and responses on the wire

What a request hands over to a transport: a first line, header fields and a body.  The names of
fields are written in lower case, so of two headers that differ only in case one is sent, the later
one in the order of their exact names.  What the transport sends of its own, such as the name of the
host, is not told here.  The other way round, a response is read from the bytes of an answer.
-/

set_option autoImplicit false

namespace ScriptHost

/-! ## Header fields -/

namespace HttpRequest

/-- Whether a character may stand in the name of a header. -/
def isNameChar (c : Char) : Bool := c.isAlphanum || "!#$%&'*+-.^_\x60|~".toList.contains c

/-- A value has no control characters but tabs. -/
def isValueChar (c : Char) : Bool := c = '\t' || (' ' ≤ c && c ≠ '\x7f')

/-- A header as it is sent. -/
def fieldOf (name value : String) : Outcome (String × String) :=
  if name.isEmpty || !name.toList.all isNameChar then
    .error (.external ("header name " ++ Text.quoted name) (.stated "invalid HTTP header name"))
  else if !value.toList.all isValueChar then
    .error (.external ("header value for " ++ Text.quoted name)
      (.stated "failed to parse header value"))
  else .ok (Text.lower name, value)

/-- The fields of a list of headers; of several with one name, whatever its case, the last
counts. -/
def fieldsOf : Record String → List (String × String) → Outcome (Record String)
  | sent, [] => .ok sent
  | sent, (name, value) :: rest =>
    match fieldOf name value with
    | .ok (name, value) => fieldsOf (Record.insert name value sent) rest
    | .error e => .error e

/-- The header fields that are handed over. -/
def fields (r : HttpRequest) : Outcome (Record String) := fieldsOf [] r.headers

/-! ## Sending -/

/-- What a server is told of a request, apart from what the transport tells of itself. -/
structure Sent where
  line : String
  fields : Record String
  body : Bytes

/-- What the transport says of a request that fails. -/
def operation (r : HttpRequest) : String := r.method.name ++ " " ++ r.url

/-- What a server is told of the request, if it can be sent.  With a body goes its length; further
fields of the transport, such as what it accepts or the authorization that a URL names, are left
out. -/
def sent (r : HttpRequest) : Outcome Sent := do
  let fields ← r.fields
  match Url.parse r.url with
  | .ok u =>
    if u.authority.isNone || (u.scheme ≠ "http" && u.scheme ≠ "https") then
      throw (.external r.operation .unstated)
    let target := u.path.text ++ (match u.query with | some q => "?" ++ q | none => "")
    return {
      line := r.method.name ++ " " ++ target ++ " HTTP/1.1"
      fields := match r.body with
        | some data => Record.insert "content-length" (toString data.length) fields
        | none => fields
      body := r.body.getD [] }
  | .error _ => throw (.external r.operation .unstated)

end HttpRequest

/-! ## Answers -/

namespace HttpResponse

/-- Cuts bytes behind the first empty line; what has been seen is given from the last byte to the
first. -/
def cutHead : Bytes → Bytes → Option (Bytes × Bytes)
  | seen, rest =>
    if Head.endsBlank seen then some (seen.reverse, rest)
    else
      match rest with
      | [] => none
      | b :: rest => cutHead (b :: seen) rest

/-- The status in the first line of an answer. -/
def statusOf (line : List Char) : Option Nat :=
  match Text.words line with
  | version :: status :: _ =>
    if "HTTP/1.".toList.isPrefixOf version && status.length = 3 then
      Head.parseLength (String.ofList status)
    else none
  | _ => none

/-- The response in the bytes of an answer, which the server has ended.  A body that is shorter than
announced is none. -/
def ofBytes? (m : HttpMethod) (data : Bytes) : Option HttpResponse := do
  let (head, rest) ← cutHead [] data
  match Head.lines [] (Utf8.decodeLossy head).toList with
  | [] => none
  | first :: lines =>
    let status ← statusOf first
    let headers ← (lines.filter (· ≠ [])).mapM fun line => (Head.parseHeader line).toOption
    let headers := Record.ofList (headers.map fun (name, value) => (Text.lower name, value))
    if m = .head || status = 204 || status = 304 then some { status, headers }
    else
      match (Record.get? headers "content-length").bind Head.parseLength with
      | some n => if rest.length < n then none else some { status, headers, data := rest.take n }
      | none => some { status, headers, data := rest }

end HttpResponse

namespace HttpRequest

/-- What comes of a request to a server that answers after some milliseconds, or never does. -/
def await (r : HttpRequest) (delay : Nat) (answer : Option Bytes) : Outcome HttpResponse :=
  if r.timeout.any (· ≤ delay) then .error (.timeout r.operation)
  else
    match answer.bind (HttpResponse.ofBytes? r.method) with
    | some response => .ok response
    | none => .error (.external r.operation .unstated)

end HttpRequest

end ScriptHost
