import ScriptHost.Proofs.Database.Exclusive

/-!
# What the handle of a transaction says

The handle that a body gets keeps an outcome of its own, which only its `commit` and `rollback` set.
Whether the connection is inside of the transaction is known to the engine, and there any statement
may change it that is run through the same handle, whether it succeeds or fails.

* `Moment` — a point of a body: the handle, the database, and what the body is about to do.
* `Moment.Agrees` — the handle has no outcome exactly as long as its connection is inside.
* `Moment.LeavesUnnoticed` — the connection leaves the transaction and the handle gets no outcome.
* `Transaction.agrees_run` — one call keeps a handle right, unless it is such a one.
* `outcome_none_iff_inside` — the handle is right at every point of a body if and only if there is
  no such call in it, and it can only be a statement or a commit that fails.  If there is none, the
  rollback behind a body without an outcome finds a transaction, and nothing lasts that is written
  before there is an outcome.
-/

set_option autoImplicit false

namespace ScriptHost.Database

variable {E : Engine}

/-! ## Bodies -/

/-- What a body is about to do. -/
inductive Doing (E : Engine) where
  | inside (call : TxCall E)
  | outside
  | over (ending : Ending Unit)

/-- A point of a body. -/
structure Moment (E : Engine) where
  handle : Transaction
  database : Database E
  doing : Doing E

/-- The points that a script comes to when it is run. -/
def Script.moments {α : Type} (tx : Transaction) (db : Database E) : Script E α → List (Moment E)
  | .done _ ending => [⟨tx, db, .over ending⟩]
  | .call c next =>
    let (r, tx', db') := tx.run db c
    ⟨tx, db, .inside c⟩ :: (next r).moments tx' db'
  | .outside c next =>
    let (r, db') := c.run db
    ⟨tx, db, .outside⟩ :: (next r).moments tx db'

/-- The points of a script that is run as a transaction; none if the transaction cannot begin. -/
def bodyOf {α : Type} (db : Database E) (level : IsolationLevel) (deadline : Deadline)
    (token : Token) (script : Script E α) : List (Moment E) :=
  let traced := transact db level deadline token fun tx db =>
    let (_, ending, tx', db') := script.run tx db
    (script.moments tx db, ending, tx', db')
  traced.1.getD []

/-- The handle has no outcome exactly as long as its connection is inside of a transaction. -/
def Transaction.Agrees (tx : Transaction) (s : E.State) : Prop :=
  tx.outcome = none ↔ E.inTransaction s tx.connection = true

instance (tx : Transaction) (s : E.State) : Decidable (tx.Agrees s) :=
  inferInstanceAs (Decidable (_ ↔ _))

namespace Moment

/-- At this point the handle is right. -/
def Agrees (m : Moment E) : Prop := m.handle.Agrees m.database.store

instance (m : Moment E) : Decidable m.Agrees := inferInstanceAs (Decidable (Transaction.Agrees ..))

/-- A call leads the connection out of its transaction, of which the handle does not know. -/
def LeavesUnnoticed (m : Moment E) : Prop :=
  match m.doing with
  | .inside call =>
    let after := m.handle.run m.database call
    E.inTransaction m.database.store m.handle.connection = true ∧
      E.inTransaction after.2.2.store m.handle.connection = false ∧ after.2.1.outcome = none
  | _ => False

theorem leavesUnnoticed_inside {tx : Transaction} {db : Database E} {call : TxCall E} :
    LeavesUnnoticed ⟨tx, db, .inside call⟩ ↔
      E.inTransaction db.store tx.connection = true ∧
        E.inTransaction (tx.run db call).2.2.store tx.connection = false ∧
        (tx.run db call).2.1.outcome = none := Iff.rfl

instance : (m : Moment E) → Decidable m.LeavesUnnoticed
  | ⟨_, _, .inside _⟩ => inferInstanceAs (Decidable (_ ∧ _))
  | ⟨_, _, .outside⟩ | ⟨_, _, .over _⟩ => inferInstanceAs (Decidable False)

/-- The body passes a statement on, or it commits and that fails. -/
def IsStatementOrFailedCommit (m : Moment E) : Prop :=
  match m.doing with
  | .inside call =>
    call.command?.isSome = true ∨
      call = .commit ∧ (m.handle.run m.database call).1.isOk = false
  | _ => False

/-- Nothing lasts that is written through the handle while it has no outcome. -/
def KeepsTables (C : E.Contents) (m : Moment E) : Prop :=
  match m.doing with
  | .inside call =>
    let after := m.handle.run m.database call
    after.2.1.outcome = none → C.tables after.2.2.store = C.tables m.database.store
  | _ => True

theorem keepsTables_inside {C : E.Contents} {tx : Transaction} {db : Database E}
    {call : TxCall E} :
    KeepsTables C ⟨tx, db, .inside call⟩ ↔ ((tx.run db call).2.1.outcome = none →
      C.tables (tx.run db call).2.2.store = C.tables db.store) := Iff.rfl

instance {C : E.Contents} [DecidableEq C.Tables] : (m : Moment E) → Decidable (m.KeepsTables C)
  | ⟨_, _, .inside _⟩ => inferInstanceAs (Decidable (_ → _))
  | ⟨_, _, .outside⟩ | ⟨_, _, .over _⟩ => inferInstanceAs (Decidable True)

/-- The connection is inside of a transaction that can be rolled back. -/
def CanRollBack (m : Moment E) : Prop :=
  (E.perform m.database.store m.handle.connection .rollback).1.isOk = true

instance (m : Moment E) : Decidable m.CanRollBack := inferInstanceAs (Decidable (_ = _))

end Moment

/-! ## One call -/

namespace Transaction

variable {tx : Transaction} {db : Database E}

/-- Ending a transaction gives the handle an outcome and leads the connection out of it, or does
neither to the handle. -/
theorem finish_cases (hE : E.Lawful) (tx : Transaction) (db : Database E) (o : TxOutcome) :
    ((tx.finish db o).2.1.outcome = some o ∧
        E.inTransaction (tx.finish db o).2.2.store tx.connection = false) ∨
      ((tx.finish db o).1.isOk = false ∧ (tx.finish db o).2.1 = tx) := by
  rw [finish]
  split
  · rename_i answer store hr
    refine .inl ⟨rfl, ?_⟩
    cases o with
    | committed => exact hE.commit _ _ _ _ hr
    | rolledBack => exact hE.rollback _ _ _ _ hr
  · exact .inr ⟨rfl, rfl⟩

/-- Only a commit or a rollback that succeeds gives the handle an outcome, and it leads the
connection out of the transaction. -/
theorem outcome_run (hE : E.Lawful) (db : Database E) (ho : tx.outcome = none) (call : TxCall E) :
    (tx.run db call).2.1.outcome = none ∨
      E.inTransaction (tx.run db call).2.2.store tx.connection = false := by
  have hfinish (o : TxOutcome) : (tx.finish db o).2.1.outcome = none ∨
      E.inTransaction (tx.finish db o).2.2.store tx.connection = false := by
    obtain ⟨-, hout⟩ | ⟨-, htx⟩ := finish_cases hE tx db o
    · exact .inr hout
    · rw [htx]
      exact .inl ho
  cases call with
  | query | exec =>
    rw [run]
    split <;> exact .inl ho
  | commit =>
    rw [run]
    split
    · exact .inl ho
    · exact hfinish .committed
  | rollback =>
    rw [run, ho]
    exact hfinish .rolledBack
  | outcome | cancel => exact .inl ho

/-- **One call.**  A handle that is right stays right exactly if the connection does not leave the
transaction unnoticed. -/
theorem agrees_run (hE : E.Lawful) (h : tx.Agrees db.store) (call : TxCall E) :
    (tx.run db call).2.1.Agrees (tx.run db call).2.2.store ↔
      ¬Moment.LeavesUnnoticed ⟨tx, db, .inside call⟩ := by
  rw [Moment.leavesUnnoticed_inside, Agrees, connection_run]
  rcases ho : tx.outcome with _ | o
  · have hin := h.1 ho
    have hout := outcome_run hE db ho call
    cases hafter : E.inTransaction (tx.run db call).2.2.store tx.connection with
    | true =>
      have hnone := hout.resolve_right (by rw [hafter]; nofun)
      exact iff_of_true (iff_of_true hnone rfl) fun hleaves => Bool.noConfusion hleaves.2.1
    | false =>
      refine ⟨fun hagrees hleaves => Bool.noConfusion (hagrees.1 hleaves.2.2), fun hstays => ?_⟩
      exact iff_of_false (fun hnone => hstays ⟨hin, rfl, hnone⟩) nofun
  · -- the transaction is over, and nothing reaches the engine any more
    obtain ⟨-, -, htx, hstore⟩ := tx.run_over db ho call
    rw [htx, hstore]
    exact iff_of_true h fun hleaves => Option.some_ne_none o (ho.symm.trans hleaves.2.2)

/-- A rollback never fails inside of a transaction, so it does not lead out of it unnoticed. -/
theorem isStatementOrFailedCommit_of_leavesUnnoticed (hE : E.Lawful) {call : TxCall E}
    (h : Moment.LeavesUnnoticed ⟨tx, db, .inside call⟩) :
    Moment.IsStatementOrFailedCommit ⟨tx, db, .inside call⟩ := by
  obtain ⟨hin, hout, hnone⟩ := Moment.leavesUnnoticed_inside.1 h
  cases call with
  | query | exec => exact .inl rfl
  | commit =>
    -- had it returned, the handle would have an outcome
    refine .inr ⟨rfl, ?_⟩
    show (tx.run db .commit).1.isOk = false
    rw [run.eq_def] at hnone ⊢
    dsimp only at hnone ⊢
    split
    · rfl
    · rename_i hopen
      rw [hopen] at hnone
      obtain ⟨hsome, -⟩ | ⟨herror, -⟩ := finish_cases hE tx db .committed
      · exact absurd (hsome.symm.trans hnone) (Option.some_ne_none _)
      · exact herror
  | rollback =>
    obtain ⟨answer, s', hr⟩ := hE.rollback_inside _ _ hin
    have hr : E.perform db.store tx.connection (TxOutcome.request .rolledBack) = (.ok answer, s') :=
      hr
    rw [run.eq_def] at hnone
    dsimp only at hnone
    split at hnone
    · rename_i ho
      exact absurd (ho.symm.trans hnone) (Option.some_ne_none _)
    · rw [finish, hr] at hnone
      cases hnone
  | outcome | cancel => exact Bool.noConfusion (hin.symm.trans hout)

end Transaction

/-! ## A whole body -/

namespace Script

variable {α : Type}

theorem moments_call (c : TxCall E) (next : Outcome TxReply → Script E α) (tx : Transaction)
    (db : Database E) :
    (Script.call c next).moments tx db = ⟨tx, db, .inside c⟩ ::
      (next (tx.run db c).1).moments (tx.run db c).2.1 (tx.run db c).2.2 := by
  rw [moments]

theorem moments_outside (c : Call E α) (next : Reply α → Script E α) (tx : Transaction)
    (db : Database E) :
    (Script.outside c next).moments tx db = ⟨tx, db, .outside⟩ ::
      (next (c.run db).1).moments tx (c.run db).2 := by
  rw [moments]

/-- A script starts at the point at which it is run. -/
theorem exists_moments_eq_cons (script : Script E α) (tx : Transaction) (db : Database E) :
    ∃ doing later, script.moments tx db = ⟨tx, db, doing⟩ :: later := by
  cases script with
  | done | call | outside =>
    rw [moments]
    exact ⟨_, _, rfl⟩

/-- **The course of a handle**, by induction on the script; `Transaction.agrees_run` is its step.
The handle is right at all points if the connection never leaves the transaction unnoticed, and
wrong behind the first call with which it does. -/
theorem agrees_iff (hE : E.Lawful) (script : Script E α) {tx : Transaction} {db : Database E}
    {out : List Nat} (hr : Reached db out) (hc : tx.connection ∈ out) (h : tx.Agrees db.store) :
    (∀ m ∈ script.moments tx db, m.Agrees) ↔
      ∀ m ∈ script.moments tx db, ¬m.LeavesUnnoticed := by
  cases script with
  | done words ending =>
    rw [moments]
    refine iff_of_true (fun m hm => ?_) fun m hm => ?_
    · obtain rfl := List.mem_singleton.1 hm
      exact h
    · obtain rfl := List.mem_singleton.1 hm
      exact id
  | call c next =>
    rw [moments_call, List.forall_mem_cons, List.forall_mem_cons]
    have hr' : Reached (tx.run db c).2.2 out := hr.touch hc (.run tx db c)
    have hstep := Transaction.agrees_run hE h c
    by_cases hleaves : Moment.LeavesUnnoticed ⟨tx, db, .inside c⟩
    · refine iff_of_false (fun hall => ?_) fun hall => hall.1 hleaves
      obtain ⟨doing, later, heq⟩ :=
        (next (tx.run db c).1).exists_moments_eq_cons (tx.run db c).2.1 (tx.run db c).2.2
      exact hstep.1 (hall.2 ⟨_, _, doing⟩ (heq ▸ List.mem_cons_self)) hleaves
    · have ih := agrees_iff hE (next (tx.run db c).1) hr' (by rwa [Database.connection_run])
        (hstep.2 hleaves)
      exact and_congr (iff_of_true h hleaves) ih
  | outside c next =>
    rw [moments_outside, List.forall_mem_cons, List.forall_mem_cons]
    have hr' : Reached (c.run db).2 out := c.reached db out hr
    have h' : tx.Agrees (c.run db).2.store := by
      rwa [Transaction.Agrees, c.spares hE db tx.connection out hr hc]
    have ih := agrees_iff hE (next (c.run db).1) hr' hc h'
    exact and_congr (iff_of_true h id) ih

/-- The point at which a script is over is the one that it is left at. -/
theorem run_of_over (script : Script E α) {tx : Transaction} {db : Database E} {m : Moment E}
    (hm : m ∈ script.moments tx db) {ending : Ending Unit} (hover : m.doing = .over ending) :
    (script.run tx db).2 = (ending, m.handle, m.database) := by
  match script with
  | .done words ending' =>
    rw [moments] at hm
    obtain rfl := List.mem_singleton.1 hm
    cases hover
    rw [run]
  | .call c next =>
    rw [moments_call] at hm
    rcases List.mem_cons.1 hm with rfl | hm
    · cases hover
    · rw [run]
      exact run_of_over (next (tx.run db c).1) hm hover
  | .outside c next =>
    rw [moments_outside] at hm
    rcases List.mem_cons.1 hm with rfl | hm
    · cases hover
    · rw [run]
      exact run_of_over (next (c.run db).1) hm hover

end Script

namespace Moment

variable {m : Moment E}

theorem isStatementOrFailedCommit (hE : E.Lawful) (h : m.LeavesUnnoticed) :
    m.IsStatementOrFailedCommit := by
  obtain ⟨tx, db, call | - | ending⟩ := m
  · exact Transaction.isStatementOrFailedCommit_of_leavesUnnoticed hE h
  · exact h.elim
  · exact h.elim

theorem canRollBack_of_agrees (hE : E.Lawful) (h : m.Agrees) (ho : m.handle.outcome = none) :
    m.CanRollBack := by
  obtain ⟨answer, s', hr⟩ := hE.rollback_inside _ _ (h.1 ho)
  rw [CanRollBack, hr]
  rfl

/-- A handle that is right and stays so: what is written without an outcome is written inside of the
transaction. -/
theorem keepsTables_of_agrees (hE : E.Lawful) {C : E.Contents} (hC : C.Isolated) (h : m.Agrees)
    (hstays : ¬m.LeavesUnnoticed) : m.KeepsTables C := by
  obtain ⟨tx, db, call | - | ending⟩ := m
  · rw [keepsTables_inside]
    intro hnone
    rcases ho : tx.outcome with _ | o
    · have hin := h.1 ho
      have hin' := ((Transaction.agrees_run hE h call).2 hstays).1 hnone
      have htouches := Touches.run tx db call
      rw [connection_run] at hin'
      generalize (tx.run db call).2.2 = db' at htouches hin' ⊢
      cases htouches with
      | wait => rfl
      | request request => exact hC _ _ request hin hin'
    · obtain ⟨-, -, -, hstore⟩ := tx.run_over db ho call
      exact congrArg C.tables hstore
  · trivial
  · trivial

end Moment

/-- What is done when a body is over changes nothing of what it says, if a transaction that has no
outcome can be rolled back. -/
theorem Transaction.conclude_eq {tx : Transaction} {db : Database E}
    (h : tx.outcome = none → (E.perform db.store tx.connection .rollback).1.isOk = true)
    (ending : Ending Unit) : (tx.conclude db ending).1 = ending := by
  cases ending with
  | panicked => rfl
  | returned result =>
    cases result with
    | error e =>
      rw [conclude]
      split <;> rfl
    | ok u =>
      rw [conclude]
      split
      · rfl
      · rename_i ho
        have hok := h ho
        rcases hr : E.perform db.store tx.connection (TxOutcome.request .rolledBack) with
          ⟨f | answer, store⟩
        · rw [show E.perform db.store tx.connection .rollback = _ from hr] at hok
          cases hok
        · simp only [finish, hr]

theorem inTransaction_begin (hE : E.Lawful) {db db' : Database E} {c : Nat} {plan : IsolationPlan}
    {deadline : Deadline} {token : Token} {tx : Transaction}
    (h : db.begin c plan deadline token = (.ok tx, db')) : E.inTransaction db'.store c = true := by
  rw [Database.begin] at h
  split at h
  · cases h
  · split at h <;> cases h
    rename_i hr
    exact hE.begin _ _ _ _ _ hr

/-- The handle that a body gets is right. -/
theorem Begins.agrees (hE : E.Lawful) {db db₁ : Database E} {deadline : Deadline} {token : Token}
    {tx : Transaction} (h : Begins db deadline token tx db₁) : tx.Agrees db₁.store := by
  obtain ⟨plan, db₀, -, hb⟩ := h.begun
  exact iff_of_true h.outcome (inTransaction_begin hE hb)

/-- **What the handle of a transaction says.**  A body runs any statements through its handle and
makes any calls on the database besides, in any state that a database can be in.  At every point of
the body the handle has no outcome exactly as long as the connection is inside of the transaction,
if and only if no call leads the connection out of it unnoticed, which only statements and commits
that fail can do.  Then a body that ends without an outcome always leaves a transaction that can be
rolled back, so that the transaction returns what its body has returned, and nothing lasts that is
written through the handle while it has no outcome. -/
theorem outcome_none_iff_inside {α : Type} {C : E.Contents} (hE : E.Lawful) (hC : C.Isolated)
    {db : Database E} {out : List Nat} (hdb : Reached db out) (level : IsolationLevel)
    (deadline : Deadline) (token : Token) (script : Script E α) :
    let body := bodyOf db level deadline token script
    let result := (transact db level deadline token fun tx db => script.run tx db).2.1
    ((∀ m ∈ body, m.Agrees) ↔ ∀ m ∈ body, ¬m.LeavesUnnoticed) ∧
      (∀ m ∈ body, m.LeavesUnnoticed → m.IsStatementOrFailedCommit) ∧
      ((∀ m ∈ body, ¬m.LeavesUnnoticed) → ∀ m ∈ body, m.KeepsTables C ∧
        ∀ ending, m.doing = .over ending →
          (m.handle.outcome = none → m.CanRollBack) ∧ result = ending) := by
  obtain ⟨ending, db', -, hrun⟩ | ⟨tx, db₁, hbegins, hrun⟩ :=
    transact_cases db level deadline token
  · have hbody : bodyOf db level deadline token script = [] := by
      rw [bodyOf, hrun]
      rfl
    rw [hbody]
    exact ⟨iff_of_true (fun _ h => (nomatch h)) fun _ h => (nomatch h), fun _ h => (nomatch h),
      fun _ _ h => (nomatch h)⟩
  · have hbody : bodyOf db level deadline token script = script.moments tx db₁ := by
      rw [bodyOf, hrun]
      rfl
    have hagrees := script.agrees_iff hE (hdb.begins hbegins) List.mem_cons_self
      (hbegins.agrees hE)
    rw [hbody]
    refine ⟨hagrees, fun m _ => Moment.isStatementOrFailedCommit hE, fun hstays m hm => ?_⟩
    have hright := hagrees.2 hstays m hm
    refine ⟨Moment.keepsTables_of_agrees hE hC hright (hstays m hm), fun ending hover => ?_⟩
    have hroll := Moment.canRollBack_of_agrees hE hright
    refine ⟨hroll, ?_⟩
    have hlast := script.run_of_over hm hover
    have hresult := hrun fun tx db => script.run tx db
    rcases hscript : script.run tx db₁ with ⟨words, ending', tx', db₂⟩
    rw [hscript] at hlast hresult
    cases hlast
    rw [hresult]
    exact Transaction.conclude_eq hroll ending

/-! ## Two bodies -/

/-- A file with nothing in it, to which up to two connections can be opened. -/
def freshFile : Database Store.engine :=
  { driver := .sqlite, connection := "f", pool := { maxSize := 2 }, store := {} }

/-- A script that makes a table, tries in vain to begin another transaction and to end its own with
statements, looks from outside, and returns without an outcome. -/
def endsInVain : Script Store.engine Unit :=
  .call (.exec (.create "t" ["a"] false false) []) fun _ =>
    .call (.exec (.begin .deferred) []) fun _ =>
      .call (.query .commit [.int 1]) fun _ =>
        .outside (.query (.count "t" "n") [] {}) fun _ => .done () (.returned (.ok ()))

/-- The connection does not leave the transaction, so the handle is right and the transaction is
there to be rolled back. -/
theorem outcome_none_iff_inside_endsInVain :
    let body := bodyOf freshFile .default .never ⟨1⟩ endsInVain
    let result := (transact freshFile .default .never ⟨1⟩ fun tx db => endsInVain.run tx db).2.1
    (Store.engine.Lawful ∧ Store.contents.Isolated ∧ Reached freshFile []) ∧
      body.map (·.handle.outcome) = [none, none, none, none, none] ∧
      (∀ m ∈ body, m.Agrees ∧ m.KeepsTables Store.contents) ∧
      ∀ m ∈ body, ∀ ending, m.doing = .over ending → m.CanRollBack ∧ result = ending := by
  intro body result
  have hreached : Reached freshFile [] := .new rfl
  have hstays : ∀ m ∈ body, ¬m.LeavesUnnoticed := by decide +kernel
  have hopen : ∀ m ∈ body, m.handle.outcome = none := by decide +kernel
  obtain ⟨hagrees, -, hlast⟩ := outcome_none_iff_inside Store.lawful Store.atomic.isolated hreached
    .default .never ⟨1⟩ endsInVain
  refine ⟨⟨Store.lawful, Store.atomic.isolated, hreached⟩, by decide +kernel,
    fun m hm => ⟨hagrees.2 hstays m hm, (hlast hstays m hm).1⟩, fun m hm ending hover => ?_⟩
  obtain ⟨hroll, hresult⟩ := (hlast hstays m hm).2 ending hover
  exact ⟨hroll (hopen m hm), hresult⟩

/-- A script that makes a table, ends its transaction with a statement, and returns. -/
def endsBehindHandle : Script Store.engine Unit :=
  .call (.exec (.create "t" ["a"] false false) []) fun _ =>
    .call (.exec .commit []) fun _ => .done () (.returned (.ok ()))

/-- The handle still has no outcome, but the table is there to stay, and the script that returns
without a failure has the transaction fail, which finds nothing to roll back. -/
theorem handle_misses_statement :
    let body := bodyOf freshFile .default .never ⟨1⟩ endsBehindHandle
    let after := transact freshFile .default .never ⟨1⟩ fun tx db => endsBehindHandle.run tx db
    Reached freshFile [] ∧
      (∃ m ∈ body, ¬m.Agrees ∧ m.handle.outcome = none ∧ ¬m.CanRollBack) ∧
      (∃ m ∈ body, ¬m.KeepsTables Store.contents) ∧
      after.2.1 = .returned (.error (.external "rollback transaction" .unstated)) ∧
      after.2.2.store.tables = replay [] [⟨.create "t" ["a"] false false, []⟩] := by
  intro body after
  exact ⟨.new rfl, by decide +kernel, by decide +kernel, rfl, by decide +kernel⟩

end ScriptHost.Database
