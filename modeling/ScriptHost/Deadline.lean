/-!
# Time, cancellation and deadlines

A clock shows the time in milliseconds and knows when each cancel token is cancelled.  A deadline is
plain data: an optional instant and any number of tokens.  It is handed to every call that may have
to wait, so the limits of a request and of a single call combine by taking the smaller of the two.

A deadline passes at one instant, the earliest of its own instant and the cancellations of its
tokens; everything else that is said of a deadline follows from that instant and the time.
-/

set_option autoImplicit false

namespace ScriptHost

/-- A switch that, once turned, cancels every call whose deadline carries it. -/
structure Token where
  id : Nat
deriving DecidableEq, Repr

/-- A token that was cancelled before anything else happened. -/
def Token.spent : Token := ⟨0⟩

/-- The time, and when tokens are cancelled.  A cancellation may lie in the future. -/
structure Clock where
  now : Nat := 0
  cancellations : List (Token × Nat) := [(.spent, 0)]
deriving Inhabited

namespace Clock

/-- When a token is cancelled first. -/
def cancelledAt (c : Clock) (t : Token) : Option Nat :=
  ((c.cancellations.filter (·.1 = t)).map (·.2)).min?

/-- Whether a token has been cancelled by now. -/
def isCancelled (c : Clock) (t : Token) : Bool :=
  c.cancellations.any fun (token, instant) => token = t && instant ≤ c.now

/-- The clock after a token has been cancelled, at this instant. -/
def cancel (c : Clock) (t : Token) : Clock :=
  { c with cancellations := (t, c.now) :: c.cancellations }

/-- The clock after some milliseconds. -/
def pass (c : Clock) (ms : Nat) : Clock := { c with now := c.now + ms }

/-- Moves on to an instant, unless it has passed already. -/
def advanceTo (c : Clock) (instant : Nat) : Clock := { c with now := max c.now instant }

end Clock

/-- An instant, and tokens of which any may end the wait before. -/
structure Deadline where
  at? : Option Nat := none
  tokens : List Token := []
deriving DecidableEq, Repr, Inhabited

namespace Deadline

/-- Nobody can tell later instants apart: a deadline beyond this one is none. -/
def horizon : Nat := 0x8000000000000000 * 1000

/-- A call that waits and carries a token looks at the token this often, in milliseconds. -/
def pollSlice : Nat := 20

/-- A deadline that never comes. -/
def never : Deadline := {}

/-- The deadline at an instant. -/
def atInstant (instant : Nat) : Deadline := { at? := some instant }

/-- A deadline that has come. -/
def immediate (c : Clock) : Deadline := atInstant c.now

/-- The deadline in some milliseconds, unless that is too far away to come. -/
def after (c : Clock) (ms : Nat) : Deadline :=
  if c.now + ms < horizon then atInstant (c.now + ms) else never

/-- A negative timeout is none, and zero is at once. -/
def ofTimeout (c : Clock) (ms : Int) : Deadline :=
  if ms < 0 then never else after c ms.toNat

/-- A token that is carried already is not added again. -/
def withCancel (d : Deadline) (t : Token) : Deadline :=
  if d.tokens.contains t then d else { d with tokens := d.tokens ++ [t] }

/-- The deadline of a call that names a timeout and may have been cancelled beforehand. -/
def ofCall (c : Clock) (ms : Int) (cancelled : Bool) : Deadline :=
  if cancelled then (ofTimeout c ms).withCancel .spent else ofTimeout c ms

/-- The earlier of two instants, of which each may never come. -/
def earlier : Option Nat → Option Nat → Option Nat
  | some a, some b => some (min a b)
  | some a, none => some a
  | none, b => b

/-- The tighter of two deadlines. -/
def min (a b : Deadline) : Deadline :=
  b.tokens.foldl withCancel { at? := earlier a.at? b.at?, tokens := a.tokens }

/-- Whether one of the tokens has been cancelled. -/
def isCancelled (d : Deadline) (c : Clock) : Bool := d.tokens.any c.isCancelled

/-- Whether the deadline has come: its instant is reached, or one of its tokens has been
cancelled. -/
def isExpired (d : Deadline) (c : Clock) : Bool :=
  d.isCancelled c || (match d.at? with | some instant => instant ≤ c.now | none => false)

/-- When the deadline passes, as far as the clock knows. -/
def expiry? (d : Deadline) (c : Clock) : Option Nat :=
  d.tokens.foldl (fun e t => earlier e (c.cancelledAt t)) d.at?

/-- The time left; nothing is left once a token is cancelled. -/
def remaining (d : Deadline) (c : Clock) : Option Nat :=
  if d.isCancelled c then some 0 else d.at?.map (· - c.now)

/-- How long a call may wait before it looks at its tokens again. -/
def waitSlice (d : Deadline) (c : Clock) : Option Nat :=
  if d.tokens.isEmpty then d.remaining c
  else some (match d.remaining c with | some r => Nat.min r pollSlice | none => pollSlice)

/-- All that can be seen of a deadline at a time. -/
structure View where
  bounded : Bool
  cancelled : Bool
  expired : Bool
  remaining : Option Nat
  slice : Option Nat

/-- What can be seen of a deadline at this instant. -/
def view (d : Deadline) (c : Clock) : View :=
  { bounded := d.at?.isSome, cancelled := d.isCancelled c, expired := d.isExpired c
    remaining := d.remaining c, slice := d.waitSlice c }

/-- Waits while a condition stays as it is: `true` if that ends the wait at once, and otherwise the
deadline ends it. -/
def wait (d : Deadline) (c : Clock) (ready : Bool) : Bool × Clock :=
  if ready then (true, c)
  else
    match d.expiry? c with
    | some instant => (false, c.advanceTo instant)
    | none => (false, c)

end Deadline

end ScriptHost
