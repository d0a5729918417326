import Mathlib.Data.List.Forall2
import ScriptHost.Database.Basic
import ScriptHost.Database.Store
import ScriptHost.Proofs.Record
import ScriptHost.Proofs.Text.Utf8

/-!
# What comes back from the database

A value that is bound as a parameter and read again from a column is not always the same value: a
truth value comes back as a number, a list or a map as the text of its JSON form, and a float
without a number as null.  Everything else comes back as it was (`toValue_stored`), and so does
everything that has come back before.

* `comesBack` — what comes back for a value, and for one that has come back before.
* `Returns` — a statement succeeds, and its rows hold what an engine keeps of given values.
* `Tells` — what the record says that a script gets for such a row.
* `runQuery_of_returns` — a query gives one record for each row, in their order, and a result that
  is made of what has come back gives the same records again.

Which columns there are, how they are called and which values they hold is up to the engine.  All
that is asked of it is that a row has a cell for each column, and that a cell holds the value that
was bound, with a null in the place of a float without a number.
-/

set_option autoImplicit false

namespace ScriptHost.Database

/-! ## Values -/

/-- What comes back for a value. -/
def comesBack : Value → Value
  | .bool b => .int (if b then 1 else 0)
  | .float x => if x.isNaN then .null else .float x
  | .arr items => .str (Value.arr items).toJson.text
  | .map fields => .str (Value.map fields).toJson.text
  | v => v

theorem toValue_stored (v : Value) : (Cell.ofValue v).stored.toValue = comesBack v := by
  cases v with
  | null | bool b | int n | bytes b => rfl
  | float x =>
    rw [Cell.ofValue, Cell.stored, comesBack]
    split <;> rfl
  | str s => exact congrArg Value.str (Utf8.decodeLossy_encode s)
  | arr items => exact congrArg Value.str (Utf8.decodeLossy_encode _)
  | map fields => exact congrArg Value.str (Utf8.decodeLossy_encode _)

@[simp] theorem comesBack_comesBack (v : Value) : comesBack (comesBack v) = comesBack v := by
  cases v with
  | float x =>
    rw [comesBack]
    split
    · rfl
    · rename_i h
      rw [comesBack, if_neg h]
  | null | bool b | int n | str s | bytes b | arr items | map fields => rfl

/-! ## Rows -/

/-- The cells of a row, in which an engine keeps the given values. -/
def cellsOf (columns : List (String × Value)) : List Cell :=
  columns.map fun (_, v) => (Cell.ofValue v).stored

/-- The columns with what comes back for their values. -/
def columnsBack (columns : List (String × Value)) : List (String × Value) :=
  columns.map fun (name, v) => (name, comesBack v)

/-- What a record says of the row that was made of the given columns. -/
structure Tells (columns : List (String × Value)) (record : Record Value) : Prop where
  /-- No name is there twice. -/
  ascending : record.Ascending
  names : ∀ name, name ∈ record.names ↔ name ∈ columns.map (·.1)
  /-- The last column of a name is the one that counts. -/
  last : ∀ front name v behind, columns = front ++ (name, v) :: behind →
    name ∉ behind.map (·.1) → Record.get? record name = some (comesBack v)

/-- The record of a row. -/
def recordOf (columns : List (String × Value)) : Record Value := .ofList (columnsBack columns)

theorem readColumns_cellsOf (columns : List (String × Value)) :
    readColumns (columns.map (·.1)) (cellsOf columns) = .ok (columnsBack columns) := by
  induction columns with
  | nil => rfl
  | cons column columns ih =>
    rw [cellsOf] at ih
    rw [cellsOf, List.map_cons, List.map_cons, readColumns, ih, toValue_stored]
    rfl

theorem readRow_cellsOf (columns : List (String × Value)) :
    readRow (columns.map (·.1)) (cellsOf columns) = .ok (.map (recordOf columns)) := by
  rw [readRow, readColumns_cellsOf]
  rfl

theorem recordOf_columnsBack (columns : List (String × Value)) :
    recordOf (columnsBack columns) = recordOf columns := by
  rw [recordOf, recordOf, columnsBack, columnsBack, List.map_map]
  simp only [Function.comp_def, comesBack_comesBack]

theorem names_columnsBack (columns : List (String × Value)) :
    (columnsBack columns).map (·.1) = columns.map (·.1) := by
  rw [columnsBack, List.map_map]
  rfl

theorem tells_recordOf (columns : List (String × Value)) : Tells columns (recordOf columns) where
  ascending := Record.ascending_ofList _
  names name := by rw [recordOf, Record.mem_names_ofList, names_columnsBack]
  last front name v behind hcolumns hlast := by
    rw [← names_columnsBack] at hlast
    rw [recordOf, hcolumns, columnsBack, List.map_append, List.map_cons]
    exact Record.get?_ofList hlast _ _

/-! ## Results -/

variable {E : Engine} {db : Database E} {c : Nat} {stmt : E.Statement} {params : List Value}
  {names : List String} {rows : List (List (String × Value))}

/-- A statement succeeds with columns of the given names, of which several may be the same, and rows
that hold the given values in them. -/
def Returns (db : Database E) (c : Nat) (stmt : E.Statement) (params : List Value)
    (names : List String) (rows : List (List (String × Value))) : Prop :=
  ∃ answer store, E.perform db.store c (.run stmt (params.map Cell.ofValue)) = (.ok answer, store) ∧
    answer.columns = names ∧ answer.rows = rows.map cellsOf ∧
    ∀ columns ∈ rows, columns.map (·.1) = names

theorem mapM_readRow_cellsOf (h : ∀ columns ∈ rows, columns.map (·.1) = names) :
    (rows.map cellsOf).mapM (readRow names) =
      .ok (rows.map fun columns => .map (recordOf columns)) := by
  induction rows with
  | nil => rfl
  | cons columns rows ih =>
    obtain ⟨hnames, hrows⟩ := List.forall_mem_cons.1 h
    rw [List.map_cons, List.mapM_cons, ih hrows, ← hnames, readRow_cellsOf]
    rfl

theorem Returns.runQuery (h : db.Returns c stmt params names rows) :
    (db.runQuery c stmt params).1 = .ok (rows.map fun columns => .map (recordOf columns)) := by
  obtain ⟨answer, store, hexec, hcolumns, hrows, hnames⟩ := h
  rw [Database.runQuery, hexec]
  simp only [hcolumns, hrows, mapM_readRow_cellsOf hnames]

/-- A query gives one record for each row, in the order of the rows, and it tells of each column
what comes back for its value; of several columns of one name, the last one counts.  What has come
back makes a second trip unchanged: any result that is made of it gives the same records. -/
theorem runQuery_of_returns (h : db.Returns c stmt params names rows) :
    (∃ records : List (Record Value),
      (db.runQuery c stmt params).1 = .ok (records.map .map) ∧ List.Forall₂ Tells rows records) ∧
    ∀ (db' : Database E) (c' : Nat) (stmt' : E.Statement) (params' : List Value),
      db'.Returns c' stmt' params' names (rows.map columnsBack) →
        (db'.runQuery c' stmt' params').1 = (db.runQuery c stmt params).1 := by
  refine ⟨⟨rows.map recordOf, ?_, ?_⟩, fun db' c' stmt' params' h' => ?_⟩
  · rw [h.runQuery, List.map_map]
    rfl
  · rw [List.forall₂_map_right_iff]
    exact List.forall₂_same.2 fun columns _ => tells_recordOf columns
  · rw [h.runQuery, h'.runQuery, List.map_map]
    simp only [Function.comp_def, recordOf_columnsBack]

/-! ## A row of the parameters -/

/-- A row of the parameters holds them, in columns of any names. -/
theorem returns_echo (db : Database Store.engine) (c : Nat) (columns : List (String × Value))
    (h : columns ≠ []) :
    db.Returns c (.echo (columns.map (·.1))) (columns.map (·.2)) (columns.map (·.1)) [columns] := by
  have hfits : (Statement.echo (columns.map (·.1))).fits (db.store.view c) = true := by
    obtain ⟨column, columns, rfl⟩ := List.exists_cons_of_ne_nil h
    rfl
  have hcells : ((columns.map (·.2)).map Cell.ofValue).map Cell.stored = cellsOf columns := by
    simp only [cellsOf, List.map_map, Function.comp_def]
  refine ⟨{ columns := columns.map (·.1), rows := [cellsOf columns]
            changes := (db.store.session c).changes }, db.store, ?_, rfl, rfl,
    List.forall_mem_singleton.2 rfl⟩
  simp [Store.perform, Store.execute, Store.prepare, Store.needsTables, Statement.access, hfits,
    Store.runPrepared, Statement.parameters, Statement.effect?, ← hcells]

/-- Two columns have the same name, and the last of them counts.  A truth value, a list and a float
without a number come back as others, and then as they are. -/
theorem runQuery_of_returns_echo :
    let db : Database Store.engine :=
      { driver := .sqlite, connection := ":memory:", pool := { maxSize := 1 }, store := {} }
    let columns := [("a", .bool true), ("b", .float ⟨0x7ff8000000000000⟩),
      ("a", .arr [.int 1, .null])]
    let back := [("a", .int 1), ("b", .null), ("a", .str "[1,null]")]
    db.Returns 0 (.echo ["a", "b", "a"]) (columns.map (·.2)) ["a", "b", "a"] [columns] ∧
      (∃ record, (db.runQuery 0 (.echo ["a", "b", "a"]) (columns.map (·.2))).1 =
          .ok [.map record] ∧ Record.Ascending record ∧
        Record.get? record "a" = some (.str "[1,null]")) ∧
      (db.runQuery 0 (.echo ["a", "b", "a"]) (back.map (·.2))).1 =
        (db.runQuery 0 (.echo ["a", "b", "a"]) (columns.map (·.2))).1 := by
  intro db columns back
  have hreturns := returns_echo db 0 columns (List.cons_ne_nil _ _)
  have hback := returns_echo db 0 back (List.cons_ne_nil _ _)
  obtain ⟨⟨records, hquery, htells⟩, hagain⟩ := runQuery_of_returns hreturns
  obtain ⟨record, hrecord, rfl⟩ : ∃ record, Tells columns record ∧ records = [record] := by
    simpa [List.forall₂_cons_left_iff] using htells
  have htext : (Value.arr [.int 1, .null]).toJson.text = "[1,null]" := by decide +kernel
  have hcolumns : [back] = [columns].map columnsBack := by
    have hnan : (⟨0x7ff8000000000000⟩ : Binary64).isNaN = true := by decide +kernel
    simp [back, columns, columnsBack, comesBack, htext, hnan]
  refine ⟨hreturns, ⟨record, hquery, hrecord.ascending, ?_⟩,
    hagain db 0 (.echo ["a", "b", "a"]) (back.map (·.2)) (hcolumns ▸ hback)⟩
  have hlast := hrecord.last [("a", .bool true), ("b", .float ⟨0x7ff8000000000000⟩)] "a"
    (.arr [.int 1, .null]) [] rfl nofun
  rw [hlast]
  exact congrArg (fun text => some (Value.str text)) htext

end ScriptHost.Database
