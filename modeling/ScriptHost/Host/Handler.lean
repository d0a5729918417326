import ScriptHost.Capability.Use
import ScriptHost.Stream.Request
/-!
# Handlers

A handler answers one request.  It is a program: it makes calls on its request and uses
capabilities, one at a time, and what it does next may depend on every reply.  In the end it returns
a value or a failure, or crashes.  On the way it may leave entries in a log.
-/

set_option autoImplicit false

namespace ScriptHost

/-- What a handler does: it returns, or does something first and goes on with what comes of it. -/
inductive Handler (ε : Type) where
  | done (r : Outcome Value)
  | crash
  | note (entry : ε) (next : Handler ε)
  /-- Looks at the context, which changes nothing. -/
  | context (next : Context → Handler ε)
  | request (c : Request.Call) (next : Outcome Request.Reply → Handler ε)
  | resolve (kind : String) (config : Json) (next : Outcome Capability → Handler ε)
  /-- Uses a capability for at most `ms` milliseconds, and no longer than the request may take. -/
  | use (c : Capability) (u : Use ε) (ms : Int) (next : Outcome (UseReply ε) → Handler ε)
  | sleep (ms : Nat) (next : Handler ε)

namespace Handler

variable {ε : Type}

instance : Inhabited (Handler ε) := ⟨.crash⟩

/-- Uses a capability several times in a row, up to the first failure, and goes on with the last
reply. -/
def useAll (c : Capability) (ms : Int) (next : Outcome (UseReply ε) → Handler ε) :
    Outcome (UseReply ε) → List (Use ε) → Handler ε
  | .error e, _ => next (.error e)
  | reply, [] => next reply
  | .ok _, u :: rest => .use c u ms fun reply => useAll c ms next reply rest

end Handler

end ScriptHost
