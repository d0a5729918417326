import ScriptHost.Failure
import ScriptHost.Text.Blank
import ScriptHost.Text.Quoted
/-!
# Isolation levels

The isolation that a script asks for, and how a transaction is begun to give it.  Every transaction
of the store is serializable, so a weaker level that is asked for by name gets more than it asks
for; nothing is stronger.
-/

set_option autoImplicit false

namespace ScriptHost.Database

/-- How far transactions are kept apart. -/
inductive IsolationLevel where
  | default
  | readUncommitted
  | readCommitted
  | writeCommitted
  | repeatableRead
  | snapshot
  | serializable
  | linearizable
deriving DecidableEq, Repr, Inhabited

namespace IsolationLevel

/-- All levels, in the order of their numbers. -/
def all : List IsolationLevel :=
  [default, readUncommitted, readCommitted, writeCommitted, repeatableRead, snapshot, serializable,
    linearizable]

/-- The number of a level. -/
def ordinal (level : IsolationLevel) : Nat := all.idxOf level

/-- The level with a number. -/
def ofOrdinal (n : Int) : Outcome IsolationLevel :=
  match (if 0 ≤ n then all[n.toNat]? else none) with
  | some level => .ok level
  | none => .error (.unsupportedIsolation ("ordinal " ++ toString n))

/-- The name of a level in messages. -/
def name : IsolationLevel → String
  | default => "Default"
  | readUncommitted => "Read Uncommitted"
  | readCommitted => "Read Committed"
  | writeCommitted => "Write Committed"
  | repeatableRead => "Repeatable Read"
  | snapshot => "Snapshot"
  | serializable => "Serializable"
  | linearizable => "Linearizable"

end IsolationLevel

/-- How a transaction is begun: without any lock, or with the lock for writing. -/
inductive BeginMode where
  | deferred
  | immediate
deriving DecidableEq, Repr

/-- The statement that begins a transaction in a mode. -/
def BeginMode.text : BeginMode → String
  | deferred => "BEGIN DEFERRED"
  | immediate => "BEGIN IMMEDIATE"

/-- How a level that is asked for is provided. -/
structure IsolationPlan where
  requested : IsolationLevel
  effective : IsolationLevel
  mode : BeginMode
deriving DecidableEq, Repr

namespace IsolationPlan

/-- Whether transactions are kept further apart than was asked for. -/
def isUpgraded (p : IsolationPlan) : Bool := p.requested ≠ p.effective

/-- What a level that is asked for comes to.  All but the default become serializable, and one is
refused. -/
def ofLevel : IsolationLevel → Outcome IsolationPlan
  | .default => .ok ⟨.default, .default, .deferred⟩
  | .linearizable => .error (.unsupportedIsolation IsolationLevel.linearizable.name)
  | level => .ok ⟨level, .serializable, .immediate⟩

end IsolationPlan

/-! ## Drivers -/

/-- The kinds of databases that can be opened. -/
inductive Driver where
  | sqlite
deriving DecidableEq, Repr

namespace Driver

/-- The name under which a database of the driver is shared and shown. -/
def name : Driver → String
  | sqlite => "sqlite3"

/-- The driver with a name, up to blanks around it and the case of ASCII letters. -/
def ofName (text : String) : Outcome Driver :=
  match Text.lower (Text.trim text) with
  | "sqlite3" | "sqlite" => .ok sqlite
  | other =>
    .error (.external ("open database with driver " ++ Text.quoted other)
      (.stated "unsupported database driver"))

end Driver

end ScriptHost.Database
