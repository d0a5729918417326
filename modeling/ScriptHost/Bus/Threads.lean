import ScriptHost.Bus.Session
/-!
# Many threads on one bus

Any number of threads may use a session at once, and share its names.  Each goes its own way one
step at a time (`Session.step`), in any order; between two steps of one thread, an emit or a wait
for an event among them, the others may do anything.  A thread that waits may look again at any
time, whether it has been woken or not.

`Threads.step` is this behaviour, with the next step chosen from outside.
-/

set_option autoImplicit false

namespace ScriptHost.Bus

/-- Threads that use one session. -/
structure Threads (α ε : Type) where
  session : Session α ε
  threads : List (Thread α ε)

namespace Threads

variable {α ε : Type}

/-- A bus with some threads that do nothing yet. -/
def new (capacity : Nat) (clock : Clock) (threads : Nat) : Threads α ε :=
  { session := { bus := .new capacity, clock }, threads := List.replicate threads {} }

/-- What can happen next. -/
inductive Label (α ε : Type) where
  /-- A thread that does nothing gets a program. -/
  | begin (thread : Nat) (program : Reaction α ε)
  | step (thread : Nat)
  /-- A call that waits in the background is answered. -/
  | answer (task : String)
  | pass (ms : Nat)

/-- The state after a step, if it can be taken. -/
def step (w : Threads α ε) : Label α ε → Option (Threads α ε)
  | .begin i program =>
    match w.threads[i]? with
    | some ⟨.run .done, []⟩ =>
      some { w with threads := w.threads.set i { control := .run program } }
    | _ => none
  | .step i =>
    match w.threads[i]? with
    | some t =>
      (w.session.step i t).map fun (t, session) => { session, threads := w.threads.set i t }
    | none => none
  | .answer task => (w.session.answer? task).map fun session => { w with session }
  | .pass ms => some { w with session := { w.session with clock := w.session.clock.pass ms } }

end Threads

end ScriptHost.Bus
