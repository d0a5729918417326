import ScriptHost.Failure
import ScriptHost.Monitor
import ScriptHost.Text.Blank
/-!
# Connection pools

A pool lends connections, of which it opens at most `maxSize`, each when it is needed for the first
time.  A caller that finds none waits until its deadline.  Opening takes place outside of the
guarded section: the caller first gets a place for the new connection, which it gives back if the
attempt fails.
-/

set_option autoImplicit false

namespace ScriptHost.Database

/-- Where connections lead. -/
inductive Target where
  | memory
  | file (path : String)
deriving DecidableEq, Repr

/-- A text names a file, unless it is blank or the name of the memory. -/
def Target.ofText (connection : String) : Target :=
  match Text.trim connection with
  | "" | ":memory:" => memory
  | path => file path

/-- A pool of connections that go by numbers. -/
structure Pool where
  maxSize : Nat
  /-- The places that are taken, by connections or by attempts to open one. -/
  created : Nat := 0
  /-- The connections that are free, the one given back last first. -/
  idle : List Nat := []
deriving DecidableEq, Repr, Inhabited

namespace Pool

/-- All connections to a database in memory would see databases of their own, so there is only
one. -/
def ofTarget (target : Target) (maxSize : Nat) : Pool :=
  match target with
  | .memory => { maxSize := min maxSize 1 }
  | .file _ => { maxSize }

/-- What a user asks of a pool. -/
inductive Call where
  /-- A connection, or a place for one. -/
  | reserve
  /-- The place is not needed: no connection could be opened. -/
  | failed
  | giveBack (connection : Nat)

/-- What a pool replies. -/
inductive Reply where
  | connection (id : Nat)
  /-- The caller may open a connection. -/
  | place
  | refused (f : Failure)
  | done
deriving DecidableEq, Repr

open Monitor in
/-- What a call finds in the guarded section, and whom it wakes. -/
def attempt : Call → Pool → Attempt Pool Reply Unit
  | .reserve, p =>
    if p.maxSize = 0 then
      .done p (.refused (.exhausted "database pool has zero connections")) .nobody
    else
      match p.idle with
      | c :: idle => .done { p with idle } (.connection c) .nobody
      | [] =>
        if p.maxSize ≤ p.created then .blocked ()
        else .done { p with created := p.created + 1 } .place .nobody
  | .failed, p => .done { p with created := p.created - 1 } .done (.one ())
  | .giveBack c, p => .done { p with idle := c :: p.idle } .done (.one ())

/-- The reply to a call whose deadline has passed while it had to wait. -/
def giveUp : Call → Reply
  | .reserve => .refused (.timeout "check out a database connection")
  | _ => .done

/-- The calls of many callers on one pool. -/
@[reducible] def protocol : Monitor.Protocol where
  State := Pool
  Call := Call
  Reply := Reply
  Cond := Unit
  attempt := attempt
  giveUp := giveUp

end Pool

end ScriptHost.Database
