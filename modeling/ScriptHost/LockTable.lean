import ScriptHost.Failure
import ScriptHost.Monitor
import ScriptHost.Record
import ScriptHost.Text.Quoted
/-!
# Named locks

A table of locks that go by name and belong to a holder.  A lock is free or held by one holder; not
even its own holder can take it a second time.  All who wait for any lock of the table are woken
when one is released.
-/

set_option autoImplicit false

namespace ScriptHost

/-- The identity of whoever holds locks: a number of 128 bits. -/
structure Holder where
  id : Nat
deriving DecidableEq, Repr

/-- The number in hexadecimal digits, in five groups. -/
def Holder.text (h : Holder) : String :=
  let digits := (List.range 32).map fun i => Nat.digitChar (h.id >>> (4 * (31 - i)) % 16)
  let group (first count : Nat) := String.ofList ((digits.drop first).take count)
  String.intercalate "-" [group 0 8, group 8 4, group 12 4, group 16 4, group 20 12]

/-- The held locks, in the order in which they were taken. -/
structure LockTable where
  held : List (String × Holder) := []

namespace LockTable

/-- What can be asked of the table. -/
inductive Call where
  | lock (name : String) (holder : Holder)
  | unlock (name : String) (holder : Holder)
  | releaseAll (holder : Holder)

/-- What is answered: a result, or the names that have been released. -/
inductive Reply where
  | result (r : Outcome Unit)
  | released (names : List String)

/-- Who holds the lock of a name. -/
def holder? (t : LockTable) (name : String) : Option Holder := t.held.lookup name

/-- The table after the lock of a name has been given back. -/
def remove (t : LockTable) (name : String) : LockTable := ⟨t.held.filter (·.1 ≠ name)⟩

/-- The names of the locks of a holder, in alphabetical order. -/
def namesOf (t : LockTable) (holder : Holder) : List String :=
  (Record.ofList (t.held.filter (·.2 = holder))).names

open Monitor in
/-- What a call does when it gets its turn: it takes the lock, has to wait for it, or answers at
once. -/
def attempt : Call → LockTable → Attempt LockTable Reply Unit
  | .lock name holder, t =>
    match t.holder? name with
    | some _ => .blocked ()
    | none => .done ⟨t.held ++ [(name, holder)]⟩ (.result (.ok ())) .nobody
  | .unlock name holder, t =>
    match t.holder? name with
    | some owner =>
      if owner = holder then .done (t.remove name) (.result (.ok ())) (.all ())
      else
        let e := .illegalState ("lock " ++ Text.quoted name ++ " is held by another caller")
        .done t (.result (.error e)) .nobody
    | none =>
      let e := .illegalState ("lock " ++ Text.quoted name ++ " is not held")
      .done t (.result (.error e)) .nobody
  | .releaseAll holder, t =>
    let names := t.namesOf holder
    .done ⟨t.held.filter (·.2 ≠ holder)⟩ (.released names)
      (if names.isEmpty then .nobody else .all ())

/-- What a call answers that has waited for too long. -/
def giveUp : Call → Reply
  | .lock name _ => .result (.error (.timeout ("acquire lock " ++ Text.quoted name)))
  | .unlock _ _ => .result (.ok ())
  | .releaseAll _ => .released []

/-- The calls of many callers on one table. -/
@[reducible] def protocol : Monitor.Protocol where
  State := LockTable
  Call := Call
  Reply := Reply
  Cond := Unit
  attempt := attempt
  giveUp := giveUp

end LockTable

end ScriptHost
