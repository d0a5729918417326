import ScriptHost.Stream.Context
/-!
# Operations on a request

Everything that a script can do with its request, as data: one type of calls, one of replies, and
the function that makes a call.
-/

set_option autoImplicit false

namespace ScriptHost.Request

/-- Reads from the body. -/
inductive Read where
  | bytes (count : Nat)
  | byte
  | remaining
  /-- A read as plain input, whose errors are those of input. -/
  | plain (count : Nat)
  | plainToEnd

/-- What a read of the body gives. -/
inductive ReadReply where
  | bytes (data : Bytes)
  | byte (b : Option UInt8)
  | remaining (n : Nat)
  | fault (e : IoFault)
  | upTo (data : Bytes) (e : IoFault)
deriving DecidableEq

/-- What a handler can ask of its request. -/
inductive Call where
  | phase
  | isTerminal
  | method
  | url
  | path
  | query (name : String)
  | header (name : String)
  | cookie (name : String)
  | variable (name : String)
  | pathVariables
  | head
  | reader (reads : List Read)
  | read (r : Read)
  | body
  | setStatus (status : Nat)
  | setHeader (name value : String)
  | write (data : Bytes)
  | flush
  | respond (status : Nat) (type : String) (data : Bytes)
  | returnless
  | upgrade
  | complete
  | abort
  | markTimedOut
  | resetTimeout (ms : Int)
  | cancel
  | deadline
  | deadlineFor (ms : Int)
  | receive (ms : Int) (cancelled : Bool)
  | send (m : WebSocket.Message)
  | close
  | isClosed
  | writeDeadline (ms : Int)

/-- Which limit a deadline comes from. -/
inductive Limit where
  | unbounded
  | request
  | call

/-- What is answered. -/
inductive Reply where
  | done
  | flag (b : Bool)
  | count (n : Nat)
  | text (s : Option String)
  | bytes (b : Bytes)
  | pathVariables (v : Record String)
  | head (h : Head)
  | read (r : ReadReply)
  | readings (rs : List (Outcome ReadReply))
  | deadline (v : Deadline.View)
  | limit (l : Limit) (v : Deadline.View)
  | message (m : WebSocket.Message)

/-- Reads from a body that is open. -/
def doRead : Read → Act ReadReply
  | .bytes count => .bytes <$> Act.readBody count
  | .byte => .byte <$> Act.readByte
  | .remaining => do return .remaining (← Act.context).remaining
  | .plain count => fun x =>
    match Act.readBody count x with
    | (.ok data, x) => (.ok (.bytes data), x)
    | (.error e, x) => (.ok (.fault (Act.asIoFault e)), x)
  | .plainToEnd => do
    match ← Act.readToEnd ((← Act.context).remaining + 1) [] with
    | (data, none) => return .bytes data
    | (data, some e) => return .upTo data e

/-- Makes reads one after the other, whatever becomes of each. -/
def doReads : List Read → Act (List (Outcome ReadReply))
  | [] => pure []
  | r :: rest => fun x =>
    let (reply, x) := doRead r x
    ((reply :: ·) <$> doReads rest) x

/-- Whose limit a deadline is: nobody's, that of the request or that of the call. -/
def limitOf (c : Context) (d : Deadline) : Limit :=
  match d.at? with
  | none => .unbounded
  | some _ => if d.at? = c.deadline.at? then .request else .call

/-- What a call does. -/
def act : Call → Act Reply
  | .phase => do return .text (some (← Act.context).phase.name)
  | .isTerminal => do return .flag (← Act.context).phase.isTerminal
  | .method => do return .text (some (← Act.touchHead).method)
  | .url => do return .text (some (← Act.touchHead).url)
  | .path => do return .text (some (← Act.touchHead).path)
  | .query name => do return .text ((← Act.touchHead).query? name)
  | .header name => do return .text ((← Act.touchHead).header? name)
  | .cookie name => do return .text ((← Act.touchHead).cookie? name)
  | .variable name => do return .text ((← Act.touchHead).pathVariable? name)
  | .pathVariables => do return .pathVariables (← Act.touchHead).pathVariables
  | .head => do return .head (← Act.touchHead)
  | .reader reads => do
    Act.reader
    return .readings (← doReads reads)
  | .read r => do
    Act.reader
    return .read (← doRead r)
  | .body => .bytes <$> Act.body
  | .setStatus status => do
    Act.setStatus status
    return .done
  | .setHeader name value => do
    Act.setHeader name value
    return .done
  | .write data => .count <$> Act.write data
  | .flush => do
    Act.flush
    return .done
  | .respond status type data => do
    Act.respond status type data
    return .done
  | .returnless => do return .flag (← Act.context).returnless
  | .upgrade => do
    Act.upgrade
    return .done
  | .complete => do
    Act.complete
    return .done
  | .abort => do
    Act.abort
    return .done
  | .markTimedOut => do
    Act.markTimedOut
    return .done
  | .resetTimeout ms => do
    Act.resetTimeout ms
    return .done
  | .cancel => do
    Act.cancelToken
    return .done
  | .deadline => do return .deadline ((← Act.context).deadline.view (← Act.clock))
  | .deadlineFor ms => do
    let c ← Act.context
    let now ← Act.clock
    let d := c.deadlineFor now ms
    return .limit (limitOf c d) (d.view now)
  | .receive ms cancelled => do
    let now ← Act.clock
    return .message (← Act.socket (WebSocket.read (Deadline.ofCall now ms cancelled)))
  | .send m => do
    Act.socket (WebSocket.send m)
    return .done
  | .close => do
    Act.socket WebSocket.close
    return .done
  | .isClosed => do return .flag (← Act.socket WebSocket.getSocket).isClosed
  | .writeDeadline ms => do
    let now ← Act.clock
    let s ← Act.socket WebSocket.getSocket
    Act.socket (WebSocket.setSocket { s with writeDeadline := Deadline.ofTimeout now ms })
    return .done

/-- Makes a call. -/
def call (x : Exchange) (c : Call) : Outcome Reply × Exchange := act c x

end ScriptHost.Request
