import ScriptHost.Proofs.Database.Atomicity

/-!
# A connection that is out

Whoever has taken a connection has it for himself: nobody else gets it, and what others do in the
meantime, on connections of their own and in transactions of their own, neither puts it inside of a
transaction nor takes it out of one.

* `Spares` — what happens between two states leaves a connection alone that is out.
* `SparesOn` — what happens on another connection does.
* `Call.spares` — calls on a database spare all connections that are out, however they are nested; a
  script spares all of them but its own.
-/

set_option autoImplicit false

namespace ScriptHost.Database

variable {E : Engine} {db db' db'' : Database E} {c c₁ : Nat} {out : List Nat}

/-- What happens between two states leaves a connection inside or outside of a transaction as it is,
if the connection is out. -/
def Spares (c : Nat) (db db' : Database E) : Prop :=
  ∀ out, Reached db out → c ∈ out → E.inTransaction db'.store c = E.inTransaction db.store c

/-- So does what happens on the connection `c₁`, if that is out too and another one. -/
def SparesOn (c₁ c : Nat) (db db' : Database E) : Prop :=
  c ≠ c₁ → ∀ out, Reached db out → c₁ ∈ out → c ∈ out →
    E.inTransaction db'.store c = E.inTransaction db.store c

theorem Sound.ne_opened (h : Sound db out) (hc : c ∈ out) : c ≠ db.opened :=
  Nat.ne_of_lt (h.numbered c (List.mem_append_right _ hc))

/-- Who is granted a connection gets none that is out. -/
theorem Sound.ne_of_grants (h : Sound db out) (hg : Grants db c₁ db') (hc : c ∈ out) : c ≠ c₁ := by
  rintro rfl
  have hapart := (h.grants hg).apart
  exact (List.nodup_cons.1 (List.nodup_append.1 hapart).2.1).1 hc

theorem inTransaction_connect (hE : E.Lawful) {r : Except Fault Unit} {store : E.State}
    (hr : E.connect db.store db.opened = (r, store)) (hc : c ≠ db.opened) :
    E.inTransaction store c = E.inTransaction db.store c := by
  have hother := hE.connect_other db.store db.opened c hc
  rwa [hr] at hother

namespace Spares

theorem refl (c : Nat) (db : Database E) : Spares c db db := fun _ _ _ => rfl

/-- What leads from reached states to reached ones can go on. -/
theorem trans (h : Spares c db db') (hstays : Stays db db') (h' : Spares c db' db'') :
    Spares c db db'' := fun out hr hc =>
  (h' out (hstays out hr) hc).trans (h out hr hc)

theorem grants (hE : E.Lawful) (hg : Grants db c₁ db') : Spares c db db' := fun out hr hc => by
  cases hg with
  | idle => rfl
  | opened hconnect => exact inTransaction_connect hE hconnect (hr.sound.ne_opened hc)

theorem declines (hE : E.Lawful) (hd : Declines db db') : Spares c db db' := fun out hr hc => by
  cases hd with
  | refused => rfl
  | failed hconnect => exact inTransaction_connect hE hconnect (hr.sound.ne_opened hc)

theorem checkout (hE : E.Lawful) (db : Database E) (deadline : Deadline) :
    Spares c db (db.checkout deadline).2 := fun out hr hc => by
  obtain ⟨c₁, db₁, hg, he⟩ | ⟨e, db₁, hd, he⟩ := checkout_cases db deadline
  · have hne := hr.sound.ne_of_grants hg hc
    have hgranted := Spares.grants (c := c) hE hg out hr hc
    obtain ⟨ms, hl⟩ | hl := lend_cases db₁ c₁ deadline
    · rw [he, hl]
      exact (hE.setWait_other _ _ ms _ hne).trans hgranted
    · rw [he, hl]
      exact hgranted
  · rw [he]
    exact Spares.declines hE hd out hr hc

/-- A caller that gets no connection. -/
theorem refused (hE : E.Lawful) {deadline : Deadline} {ending : Ending Nat}
    (hc : db.checkout deadline = (ending, db')) : Spares c db db' := by
  have h := Spares.checkout (c := c) hE db deadline
  rwa [hc] at h

/-- **A connection that is taken is another one**, and what is done with it until it is given back
is done with it alone. -/
theorem borrow (hE : E.Lawful) {deadline : Deadline}
    (hc : db.checkout deadline = (.returned (.ok c₁), db')) (h : SparesOn c₁ c db' db'') :
    Spares c db (db''.release c₁) := fun out hr hmem => by
  obtain ⟨db₁, ms, hg, -⟩ := eq_of_checkout hc
  have hne := hr.sound.ne_of_grants hg hmem
  have hreleased : E.inTransaction (db''.release c₁).store c = E.inTransaction db''.store c := by
    rw [release, callPool]
    show E.inTransaction (if _ then _ else _) c = _
    split
    · exact hE.perform_other _ _ _ _ hne
    · rfl
  calc E.inTransaction (db''.release c₁).store c = E.inTransaction db''.store c := hreleased
    _ = E.inTransaction db'.store c :=
        h hne _ (hr.lent hc) List.mem_cons_self (List.mem_cons_of_mem _ hmem)
    _ = E.inTransaction db.store c := Spares.refused hE hc out hr hmem

end Spares

namespace SparesOn

theorem of_touches (hE : E.Lawful) (h : Touches c₁ db db') : SparesOn c₁ c db db' :=
  fun hne _ _ _ _ => h.inTransaction_eq hE hne

theorem of_spares (h : Spares c db db') : SparesOn c₁ c db db' := fun _ out hr _ hc => h out hr hc

theorem refl (c₁ c : Nat) (db : Database E) : SparesOn c₁ c db db := fun _ _ _ _ _ => rfl

theorem trans (h : SparesOn c₁ c db db') (hstays : StaysOn c₁ db db')
    (h' : SparesOn c₁ c db' db'') : SparesOn c₁ c db db'' := fun hne out hr hc₁ hc =>
  (h' hne out (hstays out hc₁ hr) hc₁ hc).trans (h hne out hr hc₁ hc)

end SparesOn

namespace Spares

theorem withConnection (hE : E.Lawful) {α : Type} {deadline : Deadline}
    {f : Nat → Database E → Outcome α × Database E}
    (hf : ∀ c₁ db, Touches c₁ db (f c₁ db).2) : Spares c db (db.withConnection deadline f).2 := by
  rw [Database.withConnection]
  split
  · rename_i hc
    exact refused hE hc
  · rename_i hc
    exact refused hE hc
  · rename_i c₁ db' hc
    exact borrow hE hc (.of_touches hE (hf c₁ db'))

/-- A transaction takes place on a connection of its own. -/
theorem transact (hE : E.Lawful) {α : Type} {level : IsolationLevel} {deadline : Deadline}
    {token : Token}
    {script : Transaction → Database E → α × Ending Unit × Transaction × Database E}
    (hs : ∀ tx db, SparesOn tx.connection c db (script tx db).2.2.2 ∧
      StaysOn tx.connection db (script tx db).2.2.2 ∧
      (script tx db).2.2.1.connection = tx.connection) :
    Spares c db (Database.transact db level deadline token script).2.2 := by
  rw [Database.transact]
  split
  · exact refl c db
  · split
    · rename_i hc
      exact refused hE hc
    · rename_i hc
      exact refused hE hc
    · rename_i plan _ _ c₁ db₁ hc
      have hb := Touches.begin db₁ c₁ plan deadline token
      split
      · rename_i he
        rw [he] at hb
        exact borrow hE hc (.of_touches hE hb)
      · rename_i tx db₂ he
        rw [he] at hb
        obtain ⟨rfl, -⟩ := connection_of_begin he
        obtain ⟨hscript, hstays, hconn⟩ := hs tx db₂
        have hconclude := Touches.conclude (script tx db₂).2.2.1 (script tx db₂).2.2.2
          (script tx db₂).2.1
        rw [hconn] at hconclude
        have hbegun : SparesOn tx.connection c db₁ db₂ := .of_touches hE hb
        exact borrow hE hc ((hbegun.trans (.of_touches hb) hscript).trans
          ((StaysOn.of_touches hb).trans hstays) (.of_touches hE hconclude))

end Spares

mutual

/-- **Calls on a database leave a connection alone that is out**, however they are nested. -/
theorem Call.spares (hE : E.Lawful) {α : Type} (call : Call E α) (db : Database E) (c : Nat) :
    Spares c db (call.run db).2 :=
  match call with
  | .query stmt params limit => by
    rw [Call.run]
    refine Spares.withConnection hE fun c₁ db => ?_
    split
    · exact .runQuery ..
    · exact .refl c₁ db
  | .exec stmt params limit => by
    rw [Call.run]
    refine Spares.withConnection hE fun c₁ db => ?_
    split
    · exact .runExec ..
    · exact .refl c₁ db
  | .pool => by
    rw [Call.run]
    exact Spares.refl c db
  | .hold limit program => by
    rw [Call.run]
    split
    · rename_i hc
      exact Spares.refused hE hc
    · rename_i hc
      exact Spares.refused hE hc
    · rename_i c₁ db' hc
      exact Spares.borrow hE hc (.of_spares (Program.spares hE program db' c))
  | .transaction level limit script => by
    rw [Call.run]
    have hfresh : Stays db { db with tokens := db.tokens + 1 } := fun _ hr => .issue _ hr
    have hsame : Spares c db { db with tokens := db.tokens + 1 } := fun _ _ _ => rfl
    exact hsame.trans hfresh (Spares.transact hE fun tx db =>
      ⟨Script.spares hE script tx db c, Script.reached script tx db⟩)

theorem Program.spares (hE : E.Lawful) {α : Type} (program : Program E α) (db : Database E)
    (c : Nat) : Spares c db (program.run db).2 :=
  match program with
  | .done words => by
    rw [Program.run]
    exact Spares.refl c db
  | .call call next => by
    rw [Program.run]
    exact (Call.spares hE call db c).trans (Call.reached call db)
      (Program.spares hE (next (call.run db).1) (call.run db).2 c)

/-- A script spares all connections that are out but its own. -/
theorem Script.spares (hE : E.Lawful) {α : Type} (script : Script E α) (tx : Transaction)
    (db : Database E) (c : Nat) : SparesOn tx.connection c db (script.run tx db).2.2.2 :=
  match script with
  | .done words ending => by
    rw [Script.run]
    exact SparesOn.refl _ c db
  | .call call next => by
    rw [Script.run]
    have h := Script.spares hE (next (tx.run db call).1) (tx.run db call).2.1 (tx.run db call).2.2 c
    rw [connection_run] at h
    have htouches := Touches.run tx db call
    exact (SparesOn.of_touches hE htouches).trans (.of_touches htouches) h
  | .outside call next => by
    rw [Script.run]
    have h := Script.spares hE (next (call.run db).1) tx (call.run db).2 c
    exact (SparesOn.of_spares (Call.spares hE call db c)).trans
      (.of_stays (Call.reached call db)) h

end

end ScriptHost.Database
