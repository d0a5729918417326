import ScriptHost.Failure
import ScriptHost.Monitor
/-!
# Bounded queues

A queue holds at most `capacity` items and hands them out in the order in which they came.  A call
that finds it full or empty waits until its deadline; `drain` takes what is there, up to a number,
as soon as there is anything.
-/

set_option autoImplicit false

namespace ScriptHost

/-- A queue and the items in it, the oldest first. -/
structure Queue (α : Type) where
  capacity : Nat
  items : List α := []

namespace Queue

variable {α : Type}

/-- What can be asked of a queue. -/
inductive Call (α : Type) where
  | put (item : α)
  | poll
  | drain (max : Nat)

/-- What is answered. -/
inductive Reply (α : Type) where
  | stored (result : Outcome Unit)
  | polled (item : Option α)
  | drained (items : List α)

/-- What a caller can wait for. -/
inductive Cond where
  | notFull
  | notEmpty
deriving DecidableEq

open Monitor in
/-- What a call does when it gets its turn: it answers, or has to wait until there is room or an
item. -/
def attempt : Call α → Queue α → Attempt (Queue α) (Reply α) Cond
  | .put item, q =>
    if q.capacity = 0 then .done q (.stored (.error (.exhausted "queue has zero capacity"))) .nobody
    else if q.capacity ≤ q.items.length then .blocked .notFull
    else .done { q with items := q.items ++ [item] } (.stored (.ok ())) (.one .notEmpty)
  | .poll, q =>
    match q.items with
    | [] => .blocked .notEmpty
    | item :: rest => .done { q with items := rest } (.polled (some item)) (.one .notFull)
  | .drain max, q =>
    if max = 0 then .done q (.drained []) .nobody
    else if q.items.isEmpty then .blocked .notEmpty
    else .done { q with items := q.items.drop max } (.drained (q.items.take max)) (.all .notFull)

/-- What a call answers that has waited for too long. -/
def giveUp : Call α → Reply α
  | .put _ => .stored (.error (.timeout "put into queue"))
  | .poll => .polled none
  | .drain _ => .drained []

/-- The calls of many callers on one queue. -/
@[reducible] def protocol (α : Type) : Monitor.Protocol where
  State := Queue α
  Call := Call α
  Reply := Reply α
  Cond := Cond
  attempt := attempt
  giveUp := giveUp

end Queue

end ScriptHost
