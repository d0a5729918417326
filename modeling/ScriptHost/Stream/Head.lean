import ScriptHost.Stream.Form
import ScriptHost.Stream.Transport
import ScriptHost.Text.Quoted
import ScriptHost.Value.Basic
/-!
# Request heads

The head of a request is its first line and its header lines, up to the first empty line.  It is
read byte by byte, so that nothing behind it is taken from the transport, and must end within the
first 64 KiB.
-/

set_option autoImplicit false

namespace ScriptHost

/-- The head of a request. -/
structure Head where
  method : String
  url : String
  path : String
  query : List (String × String)
  headers : List (String × String) := []
  pathVariables : Record String := []

namespace Head

/-- The head of a request without headers: the path of the URL is what stands before the first
question mark. -/
def new (method url : String) : Head :=
  let (path, query) := match Text.splitFirst (· = '?') url.toList with
    | some (path, query) => (String.ofList path, String.ofList query)
    | none => (url, "")
  { method := Text.upper method, url, path := if path = "" then "/" else path,
    query := Form.parse query }

/-- The head with one more header, behind those that it has. -/
def withHeader (h : Head) (name value : String) : Head :=
  { h with headers := h.headers ++ [(name, value)] }

/-! ## Looking things up -/

/-- The first value of a name in the query. -/
def query? (h : Head) (name : String) : Option String := h.query.lookup name

/-- All values of a name in the query. -/
def queryAll (h : Head) (name : String) : List String := (h.query.filter (·.1 = name)).map (·.2)

/-- The first header of a name, whose case does not matter. -/
def header? (h : Head) (name : String) : Option String :=
  (h.headers.find? fun (n, _) => Text.sameIgnoringCase n name).map (·.2)

/-- The pairs of all cookie headers. -/
def cookies (h : Head) : List (String × String) :=
  (h.headers.filter fun (n, _) => Text.sameIgnoringCase n "cookie").flatMap fun (_, value) =>
    (Text.cut (· = ';') value.toList).filterMap fun pair =>
      (Text.splitFirst (· = '=') (Text.trimList pair)).map fun (name, value) =>
        (String.ofList name, String.ofList value)

/-- The first cookie of a name. -/
def cookie? (h : Head) (name : String) : Option String := h.cookies.lookup name

/-- What the route has captured under a name. -/
def pathVariable? (h : Head) (name : String) : Option String := Record.get? h.pathVariables name

/-- A natural number of 64 bits in decimal digits, with or without a plus sign. -/
def parseLength (s : String) : Option Nat :=
  let digits := match s.toList with
    | '+' :: rest => rest
    | cs => cs
  if digits.isEmpty || !digits.all Char.isDigit then none
  else
    let n := digits.foldl (fun n c => n * 10 + (c.toNat - '0'.toNat)) 0
    if n ≤ 0xffffffffffffffff then some n else none

/-- How many bytes the body has; none if that is not said or not a number. -/
def contentLength (h : Head) : Nat :=
  ((h.header? "content-length").bind fun v => parseLength (Text.trim v)).getD 0

/-- The query as a map; of several values of a name, the first counts. -/
def queryValue (h : Head) : Value :=
  .map (h.query.foldl (fun record (name, value) =>
    if (Record.get? record name).isSome then record else Record.insert name (.str value) record) [])

/-! ## Reading -/

/-- How long a head may be. -/
def maxBytes : Nat := 64 * 1024

/-- Cuts a text at each pair of carriage return and line feed. -/
def lines : List Char → List Char → List (List Char)
  | acc, [] => [acc.reverse]
  | acc, '\r' :: '\n' :: rest => acc.reverse :: lines [] rest
  | acc, c :: rest => lines (c :: acc) rest

/-- The method and the target in the first line of a request. -/
def parseRequestLine (line : List Char) : Outcome Head :=
  match Text.words line with
  | method :: target :: version :: _ =>
    if "HTTP/".toList.isPrefixOf version then
      .ok (new (String.ofList method) (String.ofList target))
    else malformed
  | _ => malformed
where
  malformed : Outcome Head :=
    .error (.illegalState ("malformed request line " ++ Text.quoted (String.ofList line)))

/-- The name and the value in a line of a head, without the blanks around them. -/
def parseHeader (line : List Char) : Outcome (String × String) :=
  match Text.splitFirst (· = ':') line with
  | some (name, value) =>
    .ok (String.ofList (Text.trimList name), String.ofList (Text.trimList value))
  | none => .error (.illegalState ("malformed header " ++ Text.quoted (String.ofList line)))

/-- The head in a text. -/
def parse (text : String) : Outcome Head := do
  match lines [] text.toList with
  | [] => parseRequestLine []
  | first :: rest =>
    let head ← parseRequestLine first
    let headers ← (rest.filter (· ≠ [])).mapM parseHeader
    return { head with headers }

/-- Whether bytes, given from the last to the first, end in an empty line. -/
def endsBlank : Bytes → Bool
  | 10 :: 13 :: 10 :: 13 :: _ => true
  | _ => false

/-- Reads up to the first empty line, `fuel` more bytes at most, each of them by `next`; what has
been read is given from the last byte to the first. -/
def readRaw (next : Io Bytes) : Nat → Bytes → Io Bytes
  | fuel, got =>
    if endsBlank got then pure got.reverse
    else
      match fuel with
      | 0 => throw (.exhausted "request head too large")
      | fuel + 1 => do
        match ← next with
        | [] => throw (.illegalState "connection closed inside request head")
        | byte :: _ => readRaw next fuel (byte :: got)

/-- Reads a head, each byte of it by `next`. -/
def readBy (next : Io Bytes) : Io Head := do
  let raw ← readRaw next maxBytes []
  match parse (Utf8.decodeLossy raw) with
  | .ok head => pure head
  | .error e => throw e

/-- Reads a head from a transport, however long that takes. -/
def readPlain : Io Head := readBy (Io.readPlain 1)

/-- Reads a head from a transport, all of it before the deadline. -/
def read (d : Deadline) : Io Head := readBy (Io.readSome d "read request head" 1)

end Head

end ScriptHost
