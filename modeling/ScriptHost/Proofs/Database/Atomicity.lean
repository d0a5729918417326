import ScriptHost.Proofs.Database.Reach
import ScriptHost.Proofs.Database.Store

/-!
# All or nothing

A transaction of a database leaves behind either all that its script had done when it committed, or
nothing.  Which of the two it is depends on the commit alone: not on how the script ends, on what it
makes of failures, on a cancelled deadline or on a commit that failed before.

The script is observed through its *trace*, the calls that it makes inside of its transaction with
their replies and the commands that the engine has run for them.  `Course` relates a trace to the
state in which the script ends, and is proved by induction on the script (`Script.course`): as long
as nothing has ended the transaction, its connection is `Within` it with the commands that have been
run, and once something has, every further call is refused before it reaches the engine.

This holds of every engine that keeps the promises, for scripts of plain statements.
-/

set_option autoImplicit false

namespace ScriptHost.Database

variable {E : Engine}

/-! ## Traces -/

/-- The command that a call passes on. -/
def TxCall.command? : TxCall E → Option (Command E)
  | .query stmt params | .exec stmt params => some ⟨stmt, params⟩
  | .commit | .rollback | .outcome | .cancel => none

/-- Whether a call is to end the transaction. -/
def TxCall.isEnd : TxCall E → Bool
  | .commit | .rollback => true
  | _ => false

/-- A call of a script inside of its transaction, its reply, the command that the engine has run for
it, and the state of the engine before and after it. -/
structure Entry (E : Engine) where
  call : TxCall E
  reply : Outcome TxReply
  ran : Option (Command E)
  before : E.State
  after : E.State

namespace Entry

/-- A commit that returned without a failure. -/
def Commits (e : Entry E) : Prop := e.call = .commit ∧ e.reply.isOk = true

/-- A commit or a rollback that returned without a failure. -/
def Ends (e : Entry E) : Prop := (e.call = .commit ∨ e.call = .rollback) ∧ e.reply.isOk = true

theorem not_ends {e : Entry E} (h : e.call.isEnd = false) : ¬e.Ends := by
  rintro ⟨hc | hr, -⟩
  · rw [hc] at h
    cases h
  · rw [hr] at h
    cases h

/-- A call that has not reached the engine: it changes nothing, and if it asks for anything of the
connection it is told that the transaction is over. -/
def Refused (e : Entry E) : Prop :=
  e.after = e.before ∧ e.ran = none ∧
    (e.call ≠ .outcome → e.call ≠ .cancel → ∃ message, e.reply = .error (.illegalState message))

/-- What the reply to a statement says: one that returned has been run, and one that has been run
returned, unless it had rows to show that nobody wanted or that could not be read. -/
def Reports (e : Entry E) : Prop :=
  match e.ran with
  | some w => e.call.command? = some w ∧
      (e.reply.isOk = true ∨ e.reply = .error (.external execContext .unstated) ∨
        e.reply = .error (.external "read column" .unstated))
  | none => e.call.command?.isSome → e.reply.isOk = false

end Entry

/-- The commands that have been run, in their order. -/
def commands (trace : List (Entry E)) : List (Command E) := trace.filterMap Entry.ran

namespace Transaction

/-- The command that the engine runs for a call. -/
def ran? (tx : Transaction) (db : Database E) (call : TxCall E) : Option (Command E) :=
  let runs (operation : String) (w : Command E) : Option (Command E) :=
    if (tx.ensureOpen db operation).isOk && (E.perform db.store tx.connection w.request).1.isOk then
      some w
    else none
  match call with
  | .query stmt params => runs "query" ⟨stmt, params⟩
  | .exec stmt params => runs "exec" ⟨stmt, params⟩
  | .commit | .rollback | .outcome | .cancel => none

/-- What a call does that a script makes inside of its transaction. -/
def entry (tx : Transaction) (db : Database E) (call : TxCall E) : Entry E :=
  ⟨call, (tx.run db call).1, tx.ran? db call, db.store, (tx.run db call).2.2.store⟩

end Transaction

/-- The calls that a script makes inside of its transaction when it is run. -/
def Script.trace {α : Type} (tx : Transaction) (db : Database E) : Script E α → List (Entry E)
  | .done _ _ => []
  | .call c next =>
    let (r, tx', db') := tx.run db c
    tx.entry db c :: (next r).trace tx' db'
  | .outside c next =>
    let (r, db') := c.run db
    (next r).trace tx db'

/-- The trace of a script that is run as a transaction; nothing if the transaction cannot begin. -/
def history {α : Type} (db : Database E) (level : IsolationLevel) (deadline : Deadline)
    (token : Token) (script : Script E α) : List (Entry E) :=
  let traced := transact db level deadline token fun tx db =>
    let (_, ending, tx', db') := script.run tx db
    (script.trace tx db, ending, tx', db')
  traced.1.getD []

/-- A script all of whose calls are made inside of its transaction, with plain statements only. -/
def Script.Confined {α : Type} (C : E.Contents) : Script E α → Prop
  | .done _ _ => True
  | .call c next => (∀ w, c.command? = some w → C.Plain w.stmt) ∧ ∀ r, (next r).Confined C
  | .outside _ _ => False

/-! ## One call -/

/-- All columns of a row are there, or it cannot be read. -/
theorem mapM_readRow (columns : List String) (rows : List (List Cell)) :
    (∃ values, rows.mapM (readRow columns) = .ok values) ∨
      rows.mapM (readRow columns) = .error (.external "read column" .unstated) := by
  have hcolumns (columns : List String) (row : List Cell) :
      (∃ fields, readColumns columns row = .ok fields) ∨
        readColumns columns row = .error (.external "read column" .unstated) := by
    fun_induction readColumns columns row with
    | case1 => exact .inl ⟨[], rfl⟩
    | case2 => exact .inr rfl
    | case3 name columns cell row ih =>
      obtain ⟨fields, h⟩ | h := ih
      · exact .inl ⟨(name, cell.toValue) :: fields, by rw [h]; rfl⟩
      · exact .inr (by rw [h]; rfl)
  induction rows with
  | nil => exact .inl ⟨[], rfl⟩
  | cons row rows ih =>
    rw [List.mapM_cons, readRow]
    obtain ⟨fields, h⟩ | h := hcolumns columns row
    · obtain ⟨values, hrows⟩ | hrows := ih
      · exact .inl ⟨.ofFields fields :: values, by rw [h, hrows]; rfl⟩
      · exact .inr (by rw [h, hrows]; rfl)
    · exact .inr (by rw [h]; rfl)

namespace Transaction

variable {tx : Transaction} {db : Database E}

theorem reports_entry (tx : Transaction) (db : Database E) (call : TxCall E) :
    (tx.entry db call).Reports := by
  cases call with
  | commit | rollback | outcome | cancel => exact fun h => Bool.noConfusion h
  | query stmt params =>
    simp only [entry, Entry.Reports, ran?, run]
    cases hopen : tx.ensureOpen db "query" with
    | error e => exact fun _ => rfl
    | ok u =>
      rw [runQuery]
      simp only [Command.request, Except.isOk, Except.toBool, Bool.true_and]
      rcases E.perform db.store tx.connection (.run stmt (params.map Cell.ofValue)) with
        ⟨f | answer, store⟩
      · exact fun _ => rfl
      · obtain ⟨values, h⟩ | h := mapM_readRow answer.columns answer.rows
        · simp only [h]
          exact ⟨rfl, .inl rfl⟩
        · simp only [h]
          exact ⟨rfl, .inr (.inr rfl)⟩
  | exec stmt params =>
    simp only [entry, Entry.Reports, ran?, run]
    cases hopen : tx.ensureOpen db "exec" with
    | error e => exact fun _ => rfl
    | ok u =>
      rw [runExec]
      simp only [Command.request, Except.isOk, Except.toBool, Bool.true_and]
      rcases E.perform db.store tx.connection (.run stmt (params.map Cell.ofValue)) with
        ⟨f | answer, store⟩
      · exact fun _ => rfl
      · cases hrows : answer.rows.isEmpty with
        | true => exact ⟨rfl, .inl (by simp only [hrows]; rfl)⟩
        | false => exact ⟨rfl, .inr (.inl (by simp only [hrows]; rfl))⟩

/-- After the end of a transaction nothing reaches the engine any more. -/
theorem run_over (db : Database E) {o : TxOutcome} (ho : tx.outcome = some o) (call : TxCall E) :
    (tx.entry db call).Refused ∧ ¬(tx.entry db call).Ends ∧ (tx.run db call).2.1 = tx ∧
      (tx.run db call).2.2.store = db.store := by
  have hopen (operation : String) : ∃ message,
      tx.ensureOpen db operation = .error (.illegalState message) := by
    rw [ensureOpen, ho]
    exact ⟨_, rfl⟩
  have refused {message : String} (hran : tx.ran? db call = none)
      (hr : tx.run db call = (.error (.illegalState message), tx, db)) :
      (tx.entry db call).Refused ∧ ¬(tx.entry db call).Ends ∧ (tx.run db call).2.1 = tx ∧
        (tx.run db call).2.2.store = db.store := by
    rw [entry, hr]
    exact ⟨⟨rfl, hran, fun _ _ => ⟨message, rfl⟩⟩, fun h => Bool.noConfusion h.2, rfl, rfl⟩
  cases call with
  | query stmt params =>
    obtain ⟨message, hm⟩ := hopen "query"
    exact refused (by simp only [ran?, hm]; rfl) (by rw [run, hm])
  | exec stmt params =>
    obtain ⟨message, hm⟩ := hopen "exec"
    exact refused (by simp only [ran?, hm]; rfl) (by rw [run, hm])
  | commit =>
    obtain ⟨message, hm⟩ := hopen "commit"
    exact refused rfl (by rw [run, hm])
  | rollback => exact refused rfl (by rw [run, ho])
  | outcome =>
    exact ⟨⟨rfl, rfl, fun h => absurd rfl h⟩, Entry.not_ends rfl, rfl, rfl⟩
  | cancel =>
    exact ⟨⟨rfl, rfl, fun _ h => absurd rfl h⟩, Entry.not_ends rfl, rfl, rfl⟩

/-- What one call makes of a transaction that has not ended: it goes on, with one more command if
one has been run, or it ends with all of its commands or with none. -/
inductive Advances (C : E.Contents) (base : C.Tables) (ws : List (Command E)) (e : Entry E)
    (tx' : Transaction) : Prop
  | goesOn : ¬e.Ends → tx'.outcome = none →
      C.Within e.after tx'.connection base (ws ++ e.ran.toList) → Advances C base ws e tx'
  | commits : e.Commits → tx'.outcome.isSome = true → C.Replays base ws (C.tables e.after) →
      Advances C base ws e tx'
  | rollsBack : e.Ends → ¬e.Commits → tx'.outcome.isSome = true → C.tables e.after = base →
      Advances C base ws e tx'

section Open

variable {C : E.Contents} {base : C.Tables} {ws : List (Command E)}

/-- A call for which no command is run and that does not end the transaction. -/
theorem Advances.idle {e : Entry E} {tx' : Transaction} (he : ¬e.Ends) (hran : e.ran = none)
    (ho : tx'.outcome = none) (h : C.Within e.after tx'.connection base ws) :
    Advances C base ws e tx' :=
  .goesOn he ho (by rwa [hran, Option.toList_none, List.append_nil])

/-- A command that is run joins the others, and one that fails does not. -/
theorem within_of_request (hC : C.Atomic) (h : C.Within db.store tx.connection base ws)
    {w : Command E} (hp : C.Plain w.stmt) {r : Except Fault Answer} {store : E.State}
    (hr : E.perform db.store tx.connection w.request = (r, store)) :
    C.Within store tx.connection base (ws ++ (if r.isOk then some w else none).toList) := by
  have hrun := h.run hC hp hr
  cases r with
  | ok answer => exact hrun
  | error f => exact (List.append_nil ws).symm ▸ hrun

theorem advances_query (hC : C.Atomic) (ho : tx.outcome = none)
    (h : C.Within db.store tx.connection base ws) {stmt : E.Statement} {params : List Value}
    (hp : C.Plain stmt) :
    Advances C base ws (tx.entry db (.query stmt params))
      (tx.run db (.query stmt params)).2.1 := by
  simp only [entry, run]
  cases hopen : tx.ensureOpen db "query" with
  | error e => exact .idle (Entry.not_ends rfl) (by simp only [ran?, hopen]; rfl) ho h
  | ok u =>
    rcases hr : E.perform db.store tx.connection (Command.mk stmt params).request with ⟨r, store⟩
    have hwithin := within_of_request hC h hp hr
    have hr' : E.perform db.store tx.connection (.run stmt (params.map Cell.ofValue)) =
      (r, store) :=
      hr
    have hran : tx.ran? db (.query stmt params) = if r.isOk then some ⟨stmt, params⟩ else none := by
      simp only [ran?, hopen, hr]
      rfl
    refine .goesOn (Entry.not_ends rfl) ho ?_
    simp only [hran, runQuery, hr']
    cases r <;> exact hwithin

/-- A statement that has rows to show is refused although it has been run. -/
theorem advances_exec (hC : C.Atomic) (ho : tx.outcome = none)
    (h : C.Within db.store tx.connection base ws) {stmt : E.Statement} {params : List Value}
    (hp : C.Plain stmt) :
    Advances C base ws (tx.entry db (.exec stmt params))
      (tx.run db (.exec stmt params)).2.1 := by
  simp only [entry, run]
  cases hopen : tx.ensureOpen db "exec" with
  | error e => exact .idle (Entry.not_ends rfl) (by simp only [ran?, hopen]; rfl) ho h
  | ok u =>
    rcases hr : E.perform db.store tx.connection (Command.mk stmt params).request with ⟨r, store⟩
    have hwithin := within_of_request hC h hp hr
    have hr' : E.perform db.store tx.connection (.run stmt (params.map Cell.ofValue)) =
      (r, store) :=
      hr
    have hran : tx.ran? db (.exec stmt params) = if r.isOk then some ⟨stmt, params⟩ else none := by
      simp only [ran?, hopen, hr]
      rfl
    refine .goesOn (Entry.not_ends rfl) ho ?_
    simp only [hran, runExec, hr']
    cases r <;> exact hwithin

/-- A commit that fails leaves the transaction as it is, to be tried again or rolled back. -/
theorem advances_commit (hC : C.Atomic) (ho : tx.outcome = none)
    (h : C.Within db.store tx.connection base ws) :
    Advances C base ws (tx.entry db .commit) (tx.run db .commit).2.1 := by
  rw [entry, run]
  split
  · exact .idle (fun he => Bool.noConfusion he.2) rfl ho h
  · rcases hr : E.perform db.store tx.connection (TxOutcome.request .committed) with
      ⟨f | answer, store⟩
    · simp only [finish, hr]
      exact .idle (fun he => Bool.noConfusion he.2) rfl ho (h.commit hC hr)
    · simp only [finish, hr]
      exact .commits ⟨rfl, rfl⟩ rfl (h.commit hC hr)

/-- A rollback never fails while the transaction is open. -/
theorem advances_rollback (hE : E.Lawful) (hC : C.Atomic) (ho : tx.outcome = none)
    (h : C.Within db.store tx.connection base ws) :
    Advances C base ws (tx.entry db .rollback) (tx.run db .rollback).2.1 := by
  obtain ⟨answer, store, hr⟩ := hE.rollback_inside _ _ h.inside
  have htables := (hC.rollback db.store tx.connection).trans h.tables
  rw [hr] at htables
  have hr : E.perform db.store tx.connection (TxOutcome.request .rolledBack) =
      (.ok answer, store) := hr
  simp only [entry, run, ho, finish, hr]
  exact .rollsBack ⟨.inr rfl, rfl⟩ (fun hc => by cases hc.1) rfl htables

theorem run_open (hE : E.Lawful) (hC : C.Atomic) (ho : tx.outcome = none)
    (h : C.Within db.store tx.connection base ws) {call : TxCall E}
    (hp : ∀ w, call.command? = some w → C.Plain w.stmt) :
    Advances C base ws (tx.entry db call) (tx.run db call).2.1 := by
  cases call with
  | query stmt params => exact advances_query hC ho h (hp _ rfl)
  | exec stmt params => exact advances_exec hC ho h (hp _ rfl)
  | commit => exact advances_commit hC ho h
  | rollback => exact advances_rollback hE hC ho h
  | outcome => exact .idle (Entry.not_ends rfl) rfl ho h
  | cancel => exact .idle (Entry.not_ends rfl) rfl ho h

end Open

end Transaction

/-! ## A whole script -/

/-- What a script has made of its transaction, given its trace: as long as nothing has ended it, it
is open with the commands that have been run; what ends it also says what is left of it, and all
that comes after is refused. -/
structure Course (C : E.Contents) (base : C.Tables) (ws : List (Command E))
    (trace : List (Entry E)) (tx : Transaction) (s : E.State) : Prop where
  goesOn : (∀ e ∈ trace, ¬e.Ends) →
    tx.outcome = none ∧ C.Within s tx.connection base (ws ++ commands trace)
  ends : ∀ before e after, trace = before ++ e :: after → e.Ends →
    (e.Commits → C.Replays base (ws ++ commands before) (C.tables s)) ∧
      (¬e.Commits → C.tables s = base) ∧ ∀ e' ∈ after, e'.Refused ∧ ¬e'.Ends

theorem commands_cons (e : Entry E) (trace : List (Entry E)) :
    commands (e :: trace) = e.ran.toList ++ commands trace := by
  rw [commands, List.filterMap_cons]
  cases e.ran <;> rfl

namespace Course

variable {C : E.Contents} {base : C.Tables} {ws : List (Command E)} {e : Entry E}
  {trace : List (Entry E)} {tx : Transaction} {s : E.State}

/-- A call that does not end the transaction puts its command before those that follow. -/
theorem cons (he : ¬e.Ends) (h : Course C base (ws ++ e.ran.toList) trace tx s) :
    Course C base ws (e :: trace) tx s where
  goesOn hends := by
    rw [commands_cons, ← List.append_assoc]
    exact h.goesOn fun e' he' => hends e' (List.mem_cons_of_mem _ he')
  ends before e' after heq hends := by
    rcases List.cons_eq_append_iff.1 heq with ⟨-, hcons⟩ | ⟨before', rfl, htrace⟩
    · obtain ⟨rfl, -⟩ := List.cons.inj hcons
      exact absurd hends he
    · rw [commands_cons, ← List.append_assoc]
      exact h.ends before' e' after htrace hends

/-- A call that ends the transaction is the only one of its trace. -/
theorem cons_of_ends (he : e.Ends) (hover : ∀ e' ∈ trace, e'.Refused ∧ ¬e'.Ends)
    (hcommits : e.Commits → C.Replays base ws (C.tables s))
    (hrolls : ¬e.Commits → C.tables s = base) : Course C base ws (e :: trace) tx s where
  goesOn hends := absurd he (hends e (List.mem_cons_self ..))
  ends before e' after heq hends := by
    rcases List.cons_eq_append_iff.1 heq with ⟨rfl, hcons⟩ | ⟨before', rfl, htrace⟩
    · obtain ⟨rfl, rfl⟩ := List.cons.inj hcons
      rw [show commands ([] : List (Entry E)) = [] from rfl, List.append_nil]
      exact ⟨hcommits, hrolls, hover⟩
    · refine absurd hends (hover e' ?_).2
      rw [htrace]
      exact List.mem_append_right _ (List.mem_cons_self ..)

end Course

namespace Script

variable {α : Type} {C : E.Contents}

/-- Whatever a script goes on to call after the end of its transaction, nothing of it is heard. -/
theorem run_over (script : Script E α) (tx : Transaction) (db : Database E) {o : TxOutcome}
    (hs : script.Confined C) (ho : tx.outcome = some o) :
    (∀ e ∈ script.trace tx db, e.Refused ∧ ¬e.Ends) ∧
      (script.run tx db).2.2.1 = tx ∧ (script.run tx db).2.2.2.store = db.store := by
  match script with
  | .done words ending =>
    rw [trace, run]
    exact ⟨fun e he => absurd he (List.not_mem_nil), rfl, rfl⟩
  | .call c next =>
    obtain ⟨hrefused, hends, htx, hstore⟩ := tx.run_over db ho c
    obtain ⟨hover, htx', hstore'⟩ := run_over (next (tx.run db c).1) (tx.run db c).2.1
      (tx.run db c).2.2 (hs.2 _) (by rw [htx, ho])
    rw [trace, run]
    refine ⟨fun e he => ?_, htx'.trans htx, hstore'.trans hstore⟩
    rcases List.mem_cons.1 he with rfl | he
    · exact ⟨hrefused, hends⟩
    · exact hover e he
  | .outside c next => exact hs.elim

/-- **The course of a script**, by induction on the script; `Transaction.run_open` is its step. -/
theorem course (hE : E.Lawful) (hC : C.Atomic) (script : Script E α) {tx : Transaction}
    {db : Database E} {base : C.Tables} {ws : List (Command E)} (hs : script.Confined C)
    (ho : tx.outcome = none) (h : C.Within db.store tx.connection base ws) :
    Course C base ws (script.trace tx db) (script.run tx db).2.2.1
      (script.run tx db).2.2.2.store := by
  match script with
  | .done words ending =>
    rw [trace, run]
    refine ⟨fun _ => ⟨ho, ?_⟩, fun before e after heq => by simp at heq⟩
    rwa [show commands ([] : List (Entry E)) = [] from rfl, List.append_nil]
  | .call c next =>
    rw [trace, run]
    cases Transaction.run_open hE hC ho h hs.1 with
    | goesOn he ho' h' =>
      exact .cons he (course hE hC (next (tx.run db c).1) (hs.2 _) ho' h')
    | commits he ho' htables =>
      obtain ⟨o, ho'⟩ := Option.isSome_iff_exists.1 ho'
      obtain ⟨hover, -, hstore⟩ := run_over (next (tx.run db c).1) (tx.run db c).2.1
        (tx.run db c).2.2 (hs.2 _) ho'
      exact .cons_of_ends ⟨.inl he.1, he.2⟩ hover (fun _ => hstore ▸ htables) fun hn => absurd he hn
    | rollsBack he hn ho' htables =>
      obtain ⟨o, ho'⟩ := Option.isSome_iff_exists.1 ho'
      obtain ⟨hover, -, hstore⟩ := run_over (next (tx.run db c).1) (tx.run db c).2.1
        (tx.run db c).2.2 (hs.2 _) ho'
      exact .cons_of_ends he hover (fun hc => absurd hc hn) fun _ => hstore ▸ htables
  | .outside c next => exact hs.elim

theorem reports_of_mem_trace (script : Script E α) (tx : Transaction) (db : Database E)
    {e : Entry E} (he : e ∈ script.trace tx db) : e.Reports := by
  match script with
  | .done words ending =>
    rw [trace] at he
    exact absurd he List.not_mem_nil
  | .call c next =>
    rw [trace] at he
    rcases List.mem_cons.1 he with rfl | he
    · exact tx.reports_entry db c
    · exact reports_of_mem_trace (next (tx.run db c).1) _ _ he
  | .outside c next =>
    rw [trace] at he
    exact reports_of_mem_trace (next (c.run db).1) tx _ he

end Script

/-! ## Other connections -/

/-- A connection that was outside of any transaction still is. -/
def Leaves (c : Nat) (db db' : Database E) : Prop :=
  E.inTransaction db'.store c = true → E.inTransaction db.store c = true

section Others

variable {db db' db'' : Database E} {c c' : Nat}

theorem Touches.inTransaction_eq (hE : E.Lawful) (h : Touches c db db') (hc : c' ≠ c) :
    E.inTransaction db'.store c' = E.inTransaction db.store c' := by
  cases h with
  | wait => rfl
  | request request => exact hE.perform_other _ _ request _ hc

theorem Touches.opened_eq (h : Touches c db db') : db'.opened = db.opened := by
  cases h <;> rfl

/-- A script of one transaction makes its calls on the connection of that alone. -/
theorem Script.inTransaction_eq (hE : E.Lawful) {α : Type} {C : E.Contents} (script : Script E α)
    (tx : Transaction) (db : Database E) (hs : script.Confined C) (hc : c ≠ tx.connection) :
    E.inTransaction (script.run tx db).2.2.2.store c = E.inTransaction db.store c := by
  match script with
  | .done words ending => rw [run]
  | .call a next =>
    have ih := inTransaction_eq hE (next (tx.run db a).1) (tx.run db a).2.1 (tx.run db a).2.2
      (hs.2 _) (by rwa [Database.connection_run])
    rw [run]
    exact ih.trans ((Touches.run tx db a).inTransaction_eq hE hc)
  | .outside a next => exact hs.elim

theorem Script.opened_eq {α : Type} {C : E.Contents} (script : Script E α) (tx : Transaction)
    (db : Database E) (hs : script.Confined C) :
    (script.run tx db).2.2.2.opened = db.opened := by
  match script with
  | .done words ending => rw [run]
  | .call a next =>
    have ih := opened_eq (next (tx.run db a).1) (tx.run db a).2.1 (tx.run db a).2.2 (hs.2 _)
    rw [run]
    exact ih.trans (Touches.run tx db a).opened_eq
  | .outside a next => exact hs.elim

/-- A connection that is given back is outside of any transaction. -/
theorem inTransaction_release (hE : E.Lawful) (h : E.inTransaction (db.release c).store c' = true) :
    c' ≠ c ∧ E.inTransaction db.store c' = true := hE.inside_of_rollback h

theorem inTransaction_grants (hE : E.Lawful) (h : Grants db c db')
    (hin : E.inTransaction db'.store c' = true) (hc : c' ≠ c) :
    E.inTransaction db.store c' = true := by
  cases h with
  | idle => exact hin
  | opened hconnect =>
    have hother := hE.connect_other db.store db.opened c' hc
    rw [hconnect] at hother
    exact hother ▸ hin

/-- Taking a connection puts none inside of a transaction. -/
theorem inTransaction_checkout (hE : E.Lawful) (db : Database E) (deadline : Deadline) (c' : Nat)
    (hlt : c' < (db.checkout deadline).2.opened) (hnone : (db.checkout deadline).1.lent ≠ [c'])
    (hin : E.inTransaction (db.checkout deadline).2.store c' = true) :
    E.inTransaction db.store c' = true := by
  obtain ⟨c, db₁, hg, hr⟩ | ⟨e, db₁, hd, hr⟩ := checkout_cases db deadline
  · obtain ⟨ms, hl⟩ | hl := lend_cases db₁ c deadline
    · rw [hr, hl] at hnone hin
      have hc : c' ≠ c := fun heq => hnone (by rw [heq]; rfl)
      exact inTransaction_grants hE hg ((hE.setWait_other _ _ ms _ hc).symm.trans hin) hc
    · rw [hr, hl] at hin
      -- the connection that is lost is as it has been, or a new one
      by_cases hc : c' = c
      · subst hc
        cases hg with
        | idle => exact hin
        | opened hconnect => exact Bool.noConfusion (hin.symm.trans (hE.connect _ _ _ hconnect))
      · exact inTransaction_grants hE hg hin hc
  · rw [hr] at hlt hin
    cases hd with
    | refused => exact hin
    | failed hconnect =>
      have hother := hE.connect_other db.store db.opened c' (Nat.ne_of_lt hlt)
      rw [hconnect] at hother
      exact hother ▸ hin

end Others

/-! ## What lasts -/

section Lasting

variable {C : E.Contents} {db db' : Database E} {c : Nat}

theorem tables_checkout (hC : C.Atomic) (db : Database E) (deadline : Deadline) :
    C.tables (db.checkout deadline).2.store = C.tables db.store := by
  have hconnect {r : Except Fault Unit} {store : E.State}
      (h : E.connect db.store db.opened = (r, store)) : C.tables store = C.tables db.store := by
    have := hC.connect db.store db.opened
    rwa [h] at this
  obtain ⟨c, db₁, hg, hr⟩ | ⟨e, db₁, hd, hr⟩ := checkout_cases db deadline
  · have htables : C.tables db₁.store = C.tables db.store := by
      cases hg with
      | idle => rfl
      | opened h => exact hconnect h
    obtain ⟨ms, hl⟩ | hl := lend_cases db₁ c deadline
    · rw [hr, hl]
      exact (hC.setWait _ _ ms).trans htables
    · rw [hr, hl]
      exact htables
  · rw [hr]
    cases hd with
    | refused => rfl
    | failed h => exact hconnect h

/-- Giving a connection back makes nothing lasting. -/
theorem tables_release (hC : C.Atomic) (db : Database E) (c : Nat) :
    C.tables (db.release c).store = C.tables db.store := by
  have hrelease : (db.release c).store =
      if E.inTransaction db.store c then (E.perform db.store c .rollback).2 else db.store := rfl
  rw [hrelease]
  split
  · exact hC.rollback _ _
  · rfl

/-- What is done when a script is over makes nothing lasting. -/
theorem Transaction.tables_conclude (hC : C.Atomic) (tx : Transaction) (db : Database E)
    (ending : Ending Unit) : C.tables (tx.conclude db ending).2.store = C.tables db.store := by
  cases ending with
  | panicked => rfl
  | returned result =>
    cases result with
    | error e =>
      rw [conclude]
      split
      · exact hC.rollback _ _
      · rfl
    | ok u =>
      rw [conclude]
      split
      · rfl
      · have hroll := hC.rollback db.store tx.connection
        rcases hr : E.perform db.store tx.connection (TxOutcome.request .rolledBack) with
          ⟨f | answer, store⟩
        all_goals
          rw [show E.perform db.store tx.connection .rollback = _ from hr] at hroll
          simp only [finish, hr]
          exact hroll

end Lasting

/-! ## Transactions -/

section Transactions

variable {C : E.Contents} {db db' : Database E} {deadline : Deadline} {token : Token}

/-- A transaction that does not come to its script leaves nothing behind. -/
theorem Misses.tables (hC : C.Atomic) (h : Misses db deadline token db') :
    C.tables db'.store = C.tables db.store := by
  have htables := tables_checkout hC db deadline
  cases h with
  | level => rfl
  | refused hc => rwa [hc] at htables
  | @begin c db₀ db₁ plan e hc hb =>
    rw [hc] at htables
    rw [tables_release hC]
    rw [Database.begin] at hb
    split at hb
    · cases hb
      exact htables
    · split at hb <;> cases hb
      rename_i hr
      exact (hC.begin_failed _ _ _ _ _ hr).trans htables

/-- It leaves no connection inside of a transaction. -/
theorem Misses.leaves (hE : E.Lawful) (h : Misses db deadline token db') :
    ∀ c < db'.opened, Leaves c db db' := by
  have hother := inTransaction_checkout hE db deadline
  intro c' hlt hin
  cases h with
  | level => exact hin
  | refused hc hnone =>
    rw [hc] at hother
    exact hother c' hlt (by rw [hnone]; nofun) hin
  | @begin c db₀ db₁ plan e hc hb =>
    have htouches := Touches.begin db₀ c plan deadline token
    rw [hb] at htouches
    rw [hc] at hother
    obtain ⟨hne, hin⟩ := inTransaction_release hE hin
    rw [htouches.inTransaction_eq hE hne] at hin
    have hlt : c' < db₁.opened := hlt
    exact hother c' (htouches.opened_eq ▸ hlt) (by rintro ⟨⟩; exact hne rfl) hin

theorem within_of_begin (hE : E.Lawful) (hC : C.Atomic) {c : Nat} {plan : IsolationPlan}
    {tx : Transaction} (h : db.begin c plan deadline token = (.ok tx, db')) :
    C.Within db'.store c (C.tables db.store) [] := by
  rw [Database.begin] at h
  split at h
  · cases h
  · split at h <;> cases h
    rename_i hr
    exact hC.within_of_begin hE hr

/-- A transaction comes to its script on a connection that is inside of it. -/
theorem Begins.within (hE : E.Lawful) (hC : C.Atomic) {tx : Transaction}
    (h : Begins db deadline token tx db') :
    C.Within db'.store tx.connection (C.tables db.store) [] := by
  obtain ⟨plan, db₀, hc, hb⟩ := h.begun
  have htables := tables_checkout hC db deadline
  rw [hc] at htables
  exact htables ▸ within_of_begin hE hC hb

/-- That is the only one that has come to be inside of a transaction. -/
theorem Begins.leaves (hE : E.Lawful) {tx : Transaction} (h : Begins db deadline token tx db') :
    ∀ c < db'.opened, c ≠ tx.connection → Leaves c db db' := by
  obtain ⟨plan, db₀, hc, hb⟩ := h.begun
  intro c hlt hne hin
  have htouches := Touches.begin db₀ tx.connection plan deadline token
  rw [hb] at htouches
  rw [htouches.inTransaction_eq hE hne] at hin
  have hother := inTransaction_checkout hE db deadline c
  rw [hc] at hother
  exact hother (htouches.opened_eq ▸ hlt) (by rintro ⟨⟩; exact hne rfl) hin

end Transactions

/-- **A transaction is all or nothing.**  In any state of a database, at any level and deadline, a
script of plain statements leaves exactly what the commands make of the tables that have been run
before the commit that returned, and nothing if none did.  At most one commit or rollback returns,
and everything that the script calls afterwards is refused without reaching the connection.  A
statement that returned has been run, and one that has been run returned, unless its rows could not
be handed out.  No connection is left inside of a transaction. -/
theorem transact_all_or_nothing {α : Type} {C : E.Contents} (hE : E.Lawful) (hC : C.Atomic)
    (db : Database E) (level : IsolationLevel) (deadline : Deadline) (token : Token)
    {script : Script E α} (hs : script.Confined C) :
    let trace := history db level deadline token script
    let db' := (transact db level deadline token fun tx db => script.run tx db).2.2
    ((∀ e ∈ trace, ¬e.Commits) → C.tables db'.store = C.tables db.store) ∧
      (∀ before e after, trace = before ++ e :: after → e.Commits →
        C.Replays (C.tables db.store) (commands before) (C.tables db'.store)) ∧
      (∀ before e after, trace = before ++ e :: after → e.Ends →
        ∀ e' ∈ after, e'.Refused ∧ ¬e'.Ends) ∧
      (∀ e ∈ trace, e.Reports) ∧
      ∀ c < db'.opened, E.inTransaction db'.store c = true → E.inTransaction db.store c = true := by
  obtain ⟨ending, db', hmisses, hrun⟩ | ⟨tx, db₁, hbegins, hrun⟩ :=
    transact_cases db level deadline token
  · -- the transaction has not begun
    have htrace : history db level deadline token script = [] := by
      rw [history, hrun]
      rfl
    rw [htrace, hrun]
    exact ⟨fun _ => hmisses.tables hC, fun before e after heq => by simp at heq,
      fun before e after heq => by simp at heq, nofun, hmisses.leaves hE⟩
  · have htrace : history db level deadline token script = script.trace tx db₁ := by
      rw [history, hrun]
      rfl
    have hcourse := script.course hE hC hs hbegins.outcome (hbegins.within hE hC)
    have hflags := fun c => script.inTransaction_eq hE tx db₁ hs (c := c)
    have hopened := (script.reached tx db₁).2
    have hrun := hrun fun tx db => script.run tx db
    have hconcluded := fun ending : Ending Unit =>
      Touches.conclude (script.run tx db₁).2.2.1 (script.run tx db₁).2.2.2 ending
    have hkept := script.opened_eq tx db₁ hs
    rcases hres : script.run tx db₁ with ⟨words, ending, tx', db₂⟩
    simp only [hres] at hcourse hflags hopened hrun hconcluded hkept
    -- what is done behind the script changes none of the tables
    have hlasting := tx'.tables_conclude hC db₂ ending
    have htouches := hconcluded ending
    rw [htrace, hrun]
    show ((∀ e ∈ script.trace tx db₁, ¬e.Commits) → _) ∧ _
    simp only [tables_release hC, hlasting]
    refine ⟨fun hnone => ?_, fun before e after heq he => ?_, fun before e after heq he => ?_,
      fun e he => script.reports_of_mem_trace tx db₁ he, fun c hlt hin => ?_⟩
    · by_cases hends : ∀ e ∈ script.trace tx db₁, ¬e.Ends
      · exact (hcourse.goesOn hends).2.tables
      · -- it has been rolled back
        push Not at hends
        obtain ⟨e, he, hend⟩ := hends
        obtain ⟨before, after, heq⟩ := List.append_of_mem he
        exact (hcourse.ends before e after heq hend).2.1 (hnone e he)
    · exact (hcourse.ends before e after heq ⟨.inl he.1, he.2⟩).1 he
    · exact (hcourse.ends before e after heq he).2.2
    · obtain ⟨hne, hin⟩ := inTransaction_release hE hin
      have hlt : c < (tx'.conclude db₂ ending).2.opened := hlt
      rw [htouches.opened_eq, hkept] at hlt
      rw [htouches.inTransaction_eq hE (by rwa [hopened]), hflags c hne] at hin
      exact hbegins.leaves hE c hlt hne hin

/-- A script that puts a row into a new table, commits, and breaks down after another statement. -/
def keepsRow : Script Store.engine Unit :=
  .call (.exec (.create "t" ["a"] false false) []) fun _ =>
    .call (.exec (.insert "t" 1) [.int 1]) fun _ =>
      .call .commit fun _ => .call (.exec (.deleteAll "t") []) fun _ => .done () .panicked

/-- The commands of that script before it commits. -/
def keepsRowBefore : List (Command Store.engine) :=
  [⟨.create "t" ["a"] false false, []⟩, ⟨.insert "t" 1, [.int 1]⟩]

/-- A database in memory that nobody has used yet. -/
def freshMemory : Database Store.engine :=
  { driver := .sqlite, connection := ":memory:", pool := { maxSize := 1 }, store := {} }

/-- What the script has done before it committed is kept, what it did afterwards is not. -/
theorem transact_all_or_nothing_keepsRow :
    (Store.engine.Lawful ∧ Store.contents.Atomic ∧ keepsRow.Confined Store.contents) ∧
      (history freshMemory .default .never ⟨1⟩ keepsRow).map (·.reply.isOk) =
        [true, true, true, false] ∧
      (transact freshMemory .default .never ⟨1⟩ fun tx db => keepsRow.run tx db).2.2.store.tables =
        [("t", { columns := ["a"], keyed := false, rows := [[.integer 1]] })] := by
  have hplain (stmt : Statement) (params : List Value) (hp : stmt.access ≠ .control)
      (w : Command Store.engine) (hw : TxCall.command? (.exec stmt params) = some w) :
      Store.contents.Plain w.stmt := by
    obtain rfl := Option.some_inj.1 hw
    exact Store.plain hp
  have hs : keepsRow.Confined Store.contents :=
    ⟨hplain _ _ (by decide), fun _ => ⟨hplain _ _ (by decide), fun _ => ⟨nofun, fun _ =>
      ⟨hplain _ _ (by decide), fun _ => trivial⟩⟩⟩⟩
  have hall := transact_all_or_nothing Store.lawful Store.atomic freshMemory .default .never ⟨1⟩ hs
  obtain ⟨before, e, after, htrace, hbefore, hcommits⟩ : ∃ before e after,
      history freshMemory .default .never ⟨1⟩ keepsRow = before ++ e :: after ∧
        commands before = keepsRowBefore ∧ e.Commits :=
    ⟨[_, _], _, [_], rfl, rfl, rfl, rfl⟩
  have hreplays := hall.2.1 before e after htrace hcommits
  rw [hbefore] at hreplays
  refine ⟨⟨Store.lawful, Store.atomic, hs⟩, rfl, ?_⟩
  have hplains : ∀ w ∈ keepsRowBefore, w.stmt.access ≠ .control := by
    simp [keepsRowBefore, Statement.access]
  exact Store.eq_replay hreplays hplains

end ScriptHost.Database
