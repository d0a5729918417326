import ScriptHost.Http.Config
import ScriptHost.Http.Message
import ScriptHost.Url.Basic
/-!
# HTTP clients

A client turns what a script asks for into a whole request: an absolute address, the configured
headers under those of the call, a body, and the time that is left.  Sending the request is the
transport's work.
-/

set_option autoImplicit false

namespace ScriptHost

/-- A client with its configuration and the base of its relative addresses. -/
structure HttpClient where
  config : HttpClientConfig
  base : Option Url
deriving DecidableEq, Repr, Inhabited

namespace HttpClient

/-- The address of a proxy: one with a host, which may have been left without its scheme. -/
def proxyUrl? (text : String) : Option Url :=
  let withHost (text : String) : Except UrlFault Url := do
    let u ← Url.parse text
    if u.authority.isSome then .ok u else .error .relativeWithoutBase
  match withHost text with
  | .ok u => some u
  | .error .relativeWithoutBase => (withHost ("http://" ++ text)).toOption
  | .error _ => none

/-- Proxies are reached by HTTP, with or without encryption. -/
def checkProxy (config : HttpClientConfig) : Outcome Unit :=
  match config.proxy with
  | none => .ok ()
  | some text =>
    if (proxyUrl? text).any (fun u => u.scheme = "http" || u.scheme = "https") then .ok ()
    else .error (.external ("configure proxy " ++ Text.quoted text) .unstated)

/-- The configured base must be an address by itself. -/
def ofConfig (config : HttpClientConfig) : Outcome HttpClient :=
  match config.baseUrl with
  | none => .ok { config, base := none }
  | some raw =>
    match Url.parse raw with
    | .ok base => .ok { config, base := some base }
    | .error e => .error (.external ("parse base url " ++ Text.quoted raw) (.stated e.message))

/-- A client that really sends. -/
def connect (config : HttpClientConfig) : Outcome HttpClient := do
  checkProxy config
  ofConfig config

/-- The absolute address of a text, which may be relative to the base. -/
def resolve (c : HttpClient) (url : String) : Outcome Url :=
  match Url.parse url, c.base with
  | .ok absolute, _ => .ok absolute
  | .error .relativeWithoutBase, some base =>
    match base.join url with
    | .ok absolute => .ok absolute
    | .error e => .error (.external ("join url " ++ Text.quoted url) (.stated e.message))
  | .error .relativeWithoutBase, none =>
    .error (.illegalState ("relative url " ++ Text.quoted url ++ " without a base_url"))
  | .error e, _ => .error (.external ("parse url " ++ Text.quoted url) (.stated e.message))

/-- The headers of a call over the configured ones, by their exact names. -/
def headersFor (c : HttpClient) (headers : Record String) : Record String :=
  headers.foldl (fun all (name, value) => Record.insert name value all) c.config.headers

/-- Texts and bytes are sent as they are, nothing is sent for null, and any other value as JSON. -/
def bodyOf : Value → Option Bytes
  | .null => none
  | .str s => some (Utf8.encode s)
  | .bytes b => some b
  | v => some (Utf8.encode v.toJson.text)

/-- A body that was made by writing JSON says so, unless the headers say something else. -/
def withContentType (body : Value) (r : HttpRequest) : HttpRequest :=
  match body with
  | .null | .str _ | .bytes _ => r
  | _ =>
    if (r.header? "content-type").isSome then r
    else { r with headers := Record.insert "content-type" "application/json" r.headers }

/-- What the client waits for, in messages. -/
def operation (m : HttpMethod) (url : Url) : String := m.name ++ " " ++ url.text

/-- The smaller of the limits of the call and of the client. -/
def limit (c : HttpClient) (clock : Clock) (d : Deadline) : Deadline :=
  d.min (if 0 < c.config.timeoutMs then .after clock c.config.timeoutMs else .never)

/-- The whole request of a call, unless there is no time left to send it. -/
def compose (c : HttpClient) (clock : Clock) (method url : String) (headers : Record String)
    (body : Value) (d : Deadline) : Outcome HttpRequest := do
  let method ← HttpMethod.ofName method
  let url ← c.resolve url
  let limit := c.limit clock d
  if limit.isExpired clock then .error (.timeout (operation method url))
  return withContentType body
    { method, url := url.text, headers := c.headersFor headers, body := bodyOf body
      timeout := limit.remaining clock }

end HttpClient

end ScriptHost
