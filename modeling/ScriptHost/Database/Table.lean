import ScriptHost.Database.Cell
import ScriptHost.Database.Isolation
import ScriptHost.Record
/-!
# Tables and statements

A table has columns, of which the first may be its key, and rows in the order in which they were
inserted.  A statement is checked against the tables before it runs; a statement that fails changes
nothing.
-/

set_option autoImplicit false

namespace ScriptHost.Database

/-- A table and what is in it. -/
structure Table where
  columns : List String
  /-- Whether the first column is a key: no two rows have equal keys. -/
  keyed : Bool
  rows : List (List Cell) := []
deriving DecidableEq, Repr

/-- Tables by their names. -/
abbrev Tables := Record Table

/-- The statements of the store. -/
inductive Statement where
  | create (table : String) (columns : List String) (keyed ifMissing : Bool)
  | insert (table : String) (arity : Nat)
  /-- Sets the second column of the rows with a key. -/
  | update (table : String)
  | delete (table : String)
  | deleteAll (table : String)
  | select (table : String) (columns : List String)
  | count (table column : String)
  /-- A row of given numbers. -/
  | numbers (cells : List (String × Int))
  /-- A row of the parameters, in columns of the given names. -/
  | echo (columns : List String)
  /-- A text that is no statement. -/
  | malformed
  | begin (mode : BeginMode)
  | commit
  | rollback
deriving DecidableEq, Repr

/-- What a statement needs to be allowed to do. -/
inductive Access where
  | nothing
  | read
  | write
  | control
deriving DecidableEq, Repr

namespace Statement

/-- What a statement needs to be allowed to do. -/
def access : Statement → Access
  | create .. | insert .. | update .. | delete .. | deleteAll .. => .write
  | select .. | count .. => .read
  | numbers .. | echo .. | malformed => .nothing
  | begin .. | commit | rollback => .control

/-- How many parameters the statement has. -/
def parameters : Statement → Nat
  | insert _ arity => arity
  | update _ => 2
  | delete _ => 1
  | echo columns => columns.length
  | _ => 0

/-- Whether the statement reports how many rows it has changed. -/
def countsChanges : Statement → Bool
  | insert .. | update .. | delete .. | deleteAll .. => true
  | _ => false

/-- Whether the statement makes sense for these tables. -/
def fits (tables : Tables) : Statement → Bool
  | create name _ _ ifMissing => ifMissing || (Record.get? tables name).isNone
  | insert name arity => (Record.get? tables name).any fun t => t.columns.length = arity
  | update name =>
    (Record.get? tables name).any fun t => t.columns.contains "k" && t.columns.contains "v"
  | delete name => (Record.get? tables name).any fun t => t.columns.contains "k"
  | deleteAll name => (Record.get? tables name).isSome
  | select name columns => (Record.get? tables name).any fun t => columns.all t.columns.contains
  | count name _ => (Record.get? tables name).isSome
  | malformed => false
  | echo columns => !columns.isEmpty
  | _ => true

end Statement

/-! ## What statements do -/

/-- What a statement does to the tables, and what it says. -/
structure Effect where
  tables : Tables
  columns : List String := []
  rows : List (List Cell) := []
  changes : Nat := 0

namespace Table

/-- The cell of a row in a column. -/
def cell (t : Table) (column : String) (row : List Cell) : Cell :=
  row.getD (t.columns.idxOf column) .null

/-- The table with one more row, if none has its key. -/
def insert? (t : Table) (row : List Cell) : Option Table :=
  if t.keyed && t.rows.any (fun r => (r.headD .null).matchesKey (row.headD .null)) then none
  else some { t with rows := t.rows ++ [row] }

/-- The table with another value in the rows of a key. -/
def setWhere (t : Table) (key value : Cell) : Table :=
  { t with rows := t.rows.map fun r =>
      if (t.cell "k" r).matchesKey key then r.set (t.columns.idxOf "v") value else r }

/-- The rows of a key. -/
def withKey (t : Table) (key : Cell) : List (List Cell) :=
  t.rows.filter fun r => (t.cell "k" r).matchesKey key

/-- The table without them. -/
def withoutKey (t : Table) (key : Cell) : Table :=
  { t with rows := t.rows.filter fun r => !(t.cell "k" r).matchesKey key }

end Table

namespace Statement

/-- The effect of a statement that fits the tables and has the right number of parameters; none if
it fails. -/
def effect? (tables : Tables) (params : List Cell) : Statement → Option Effect
  | create name columns keyed _ =>
    match Record.get? tables name with
    | some _ => some { tables }
    | none => some { tables := Record.insert name { columns, keyed } tables }
  | insert name _ => do
    let t ← Record.get? tables name
    let t ← t.insert? params
    return { tables := Record.insert name t tables, changes := 1 }
  | update name => do
    let t ← Record.get? tables name
    let key := params.getD 0 .null
    let t' := t.setWhere key (params.getD 1 .null)
    return { tables := Record.insert name t' tables, changes := (t.withKey key).length }
  | delete name => do
    let t ← Record.get? tables name
    let key := params.getD 0 .null
    let t' := t.withoutKey key
    return { tables := Record.insert name t' tables, changes := (t.withKey key).length }
  | deleteAll name => do
    let t ← Record.get? tables name
    return { tables := Record.insert name { t with rows := [] } tables, changes := t.rows.length }
  | select name columns => do
    let t ← Record.get? tables name
    return { tables, columns, rows := t.rows.map fun r => columns.map fun c => t.cell c r }
  | count name column => do
    let t ← Record.get? tables name
    return { tables, columns := [column], rows := [[.integer t.rows.length]] }
  | numbers cells =>
    some { tables, columns := cells.map (·.1), rows := [cells.map fun c => .integer c.2] }
  | echo columns => some { tables, columns, rows := [params] }
  | _ => some { tables }

end Statement

end ScriptHost.Database
