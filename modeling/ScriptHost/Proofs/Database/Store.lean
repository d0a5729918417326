import ScriptHost.Database.Store
import ScriptHost.Proofs.Database.Engine
import Mathlib.Data.List.Basic

/-!
# The store as an engine

The store keeps what is asked of an engine, in every state that it can be in.

* `Store.Keeps` — every operation on a connection leaves the sessions of the others as they are.
* `Store.lawful`, `Store.atomic` — the promises on transactions and on tables.
* `Store.execute_inside` — a statement that neither begins nor ends a transaction, run inside of
  one: it goes on, and what the connection sees is changed as the statement says if it succeeds.
* `Store.plain`, `Store.eq_replay` — such a statement is plain, and what such statements make of
  tables, one after the other, is computed by `replay`.
-/

set_option autoImplicit false

namespace ScriptHost.Database

/-! ## Statements -/

namespace Statement

/-- What a statement makes of tables; one that fails leaves them. -/
def apply (tables : Tables) (stmt : Statement) (params : List Cell) : Tables :=
  match stmt.effect? tables params with
  | some e => e.tables
  | none => tables

theorem apply_of_effect? {stmt : Statement} {tables : Tables} {params : List Cell} {e : Effect}
    (h : stmt.effect? tables params = some e) : stmt.apply tables params = e.tables := by
  rw [apply, h]

/-- Only a statement that writes changes tables. -/
theorem tables_of_effect? {stmt : Statement} {tables : Tables} {params : List Cell} {e : Effect}
    (h : stmt.effect? tables params = some e) (hw : stmt.access ≠ .write) : e.tables = tables := by
  cases stmt with
  | create | insert | update | delete | deleteAll => exact absurd rfl hw
  | select name columns =>
    obtain ⟨t, -, h⟩ := Option.bind_eq_some_iff.1 h
    rw [← Option.some_inj.1 h]
  | count name column =>
    obtain ⟨t, -, h⟩ := Option.bind_eq_some_iff.1 h
    rw [← Option.some_inj.1 h]
  | numbers | echo | malformed | begin | commit | rollback => rw [← Option.some_inj.1 h]

end Statement

/-- What commands make of tables, one after the other. -/
def replay (tables : Tables) (ws : List (Command Store.engine)) : Tables :=
  ws.foldl (fun tables w => w.stmt.apply tables ((w.params.map Cell.ofValue).map Cell.stored))
    tables

/-! ## Sessions -/

namespace Session

@[simp] theorem working_note (s : Session) (stmt : Statement) (n : Nat) :
    (s.note stmt n).working = s.working := by
  rw [note]
  split <;> rfl

@[simp] theorem inTransaction_note (s : Session) (stmt : Statement) (n : Nat) :
    (s.note stmt n).inTransaction = s.inTransaction := by
  rw [note]
  split <;> rfl

@[simp] theorem working_take (s : Session) (level : LockLevel) :
    (s.take level).working = s.working := by
  rw [take]
  split <;> rfl

@[simp] theorem inTransaction_take (s : Session) (level : LockLevel) :
    (s.take level).inTransaction = s.inTransaction := by
  rw [take]
  split <;> rfl

end Session

namespace Store

variable {st st' : Store} {c c' : Nat}

@[simp] theorem tables_setSession (st : Store) (c : Nat) (s : Session) :
    (st.setSession c s).tables = st.tables := rfl

@[simp] theorem session_setSession_self (st : Store) (c : Nat) (s : Session) :
    (st.setSession c s).session c = s := by
  simp [session, setSession]

theorem session_setSession_of_ne (st : Store) (s : Session) (h : c' ≠ c) :
    (st.setSession c s).session c' = st.session c' := by
  have hlookup : (st.sessions.filter fun p => decide (p.1 ≠ c)).lookup c' =
      st.sessions.lookup c' := by
    induction st.sessions with
    | nil => rfl
    | cons p sessions ih =>
      obtain ⟨i, s'⟩ := p
      by_cases hi : i = c
      · subst hi
        rw [List.filter_cons_of_neg (by simp), ih, List.lookup_cons, beq_eq_false_iff_ne.2 h]
      · rw [List.filter_cons_of_pos (by simpa using hi), List.lookup_cons, List.lookup_cons, ih]
  rw [session, setSession, List.lookup_cons, beq_eq_false_iff_ne.2 h, session]
  exact congrArg (·.getD {}) hlookup

@[simp] theorem view_setSession_self (st : Store) (c : Nat) (s : Session) :
    (st.setSession c s).view c = s.working.getD st.tables := by
  rw [view, session_setSession_self, tables_setSession]

/-! ## Connections leave one another alone -/

/-- An operation on the connection `c` leaves the others alone. -/
structure Keeps (c : Nat) (st st' : Store) : Prop where
  others : ∀ c', c' ≠ c → st'.session c' = st.session c'

namespace Keeps

theorem refl (c : Nat) (st : Store) : Keeps c st st := ⟨fun _ _ => rfl⟩

theorem trans {st'' : Store} (h : Keeps c st st') (h' : Keeps c st' st'') : Keeps c st st'' :=
  ⟨fun c' hc => (h'.others c' hc).trans (h.others c' hc)⟩

theorem set (st : Store) (c : Nat) (tables : Tables) (s : Session) :
    Keeps c st ({ st with tables }.setSession c s) := ⟨fun _ hc => session_setSession_of_ne _ s hc⟩

theorem begin (st : Store) (c : Nat) (mode : BeginMode) : Keeps c st (st.begin c mode).2 := by
  cases mode with
  | deferred =>
    simp only [Store.begin]
    split
    · exact refl c st
    · exact set st c st.tables _
  | immediate =>
    simp only [Store.begin]
    split
    · exact refl c st
    · split
      · exact set st c st.tables _
      · exact refl c st

theorem commit (st : Store) (c : Nat) : Keeps c st (st.commit c).2 := by
  simp only [Store.commit]
  split
  · exact refl c st
  · split
    · exact set st c _ _
    · exact set st c st.tables _

theorem rollback (st : Store) (c : Nat) : Keeps c st (st.rollback c).2 := by
  simp only [Store.rollback]
  split
  · exact refl c st
  · exact set st c st.tables _

theorem prepare (st : Store) (c : Nat) (stmt : Statement) : Keeps c st (st.prepare c stmt).2 := by
  simp only [Store.prepare]
  split
  · exact refl c st
  · by_cases hn : needsTables stmt = true
    · simp only [hn, if_true]
      split <;> exact set st c st.tables _
    · simp only [hn, Bool.false_eq_true, if_false]
      split <;> exact refl c st

theorem read (st : Store) (c : Nat) (stmt : Statement) (params : List Cell) :
    Keeps c st (st.read c stmt params).2 := by
  simp only [Store.read]
  split
  · exact refl c st
  · split
    · exact refl c st
    · exact set st c st.tables _

theorem write (st : Store) (c : Nat) (stmt : Statement) (params : List Cell) :
    Keeps c st (st.write c stmt params).2 := by
  simp only [Store.write]
  split
  · exact set st c st.tables _
  · split
    · exact set st c st.tables _
    · split
      · exact set st c st.tables _
      · split
        · exact set st c _ _
        · exact set st c st.tables _

end Keeps

/-- What becomes of a prepared statement that neither begins nor ends a transaction. -/
theorem runPrepared_of_ne_control {stmt : Statement} {params : List Cell}
    (h : stmt.access ≠ .control) :
    st.runPrepared c stmt params =
      if params.length ≠ stmt.parameters then (.error (wrong .run), st)
      else
        match stmt.access with
        | .read => st.read c stmt (params.map Cell.stored)
        | .write => st.write c stmt (params.map Cell.stored)
        | _ =>
          match stmt.effect? (st.view c) (params.map Cell.stored) with
          | none => (.error (wrong .run), st)
          | some e =>
            let changes := (st.session c).changes
            (.ok { columns := e.columns, rows := e.rows, changes }, st) := by
  cases stmt with
  | begin | commit | rollback => exact absurd rfl h
  | create | insert | update | delete | deleteAll | select | count | numbers | echo | malformed =>
    rfl

namespace Keeps

theorem runPrepared (st : Store) (c : Nat) (stmt : Statement) (params : List Cell) :
    Keeps c st (st.runPrepared c stmt params).2 := by
  cases stmt with
  | begin mode =>
    simp only [Store.runPrepared]
    split
    · exact refl c st
    · exact begin st c mode
  | commit =>
    simp only [Store.runPrepared]
    split
    · exact refl c st
    · exact commit st c
  | rollback =>
    simp only [Store.runPrepared]
    split
    · exact refl c st
    · exact rollback st c
  | create | insert | update | delete | deleteAll | select | count | numbers | echo | malformed =>
    rw [runPrepared_of_ne_control (by simp [Statement.access])]
    split
    · exact refl c st
    · split
      · exact read ..
      · exact write ..
      · split <;> exact refl c st

theorem execute (st : Store) (c : Nat) (stmt : Statement) (params : List Cell) :
    Keeps c st (st.execute c stmt params).2 := by
  have hp := prepare st c stmt
  rw [Store.execute]
  split
  · rename_i h
    rwa [h] at hp
  · rename_i st' h
    rw [h] at hp
    exact hp.trans (runPrepared st' c stmt params)

theorem perform (st : Store) (c : Nat) (request : Request Statement) :
    Keeps c st (st.perform c request).2 := by
  cases request with
  | begin mode => exact begin st c mode
  | commit => exact commit st c
  | rollback => exact rollback st c
  | run stmt params => exact execute st c stmt params

end Keeps

/-! ## Inside of a transaction -/

/-- A connection is inside of a transaction, and of a committed table nothing has changed. -/
structure GoesOn (c : Nat) (st st' : Store) : Prop where
  inside : (st'.session c).inTransaction = true
  tables : st'.tables = st.tables

namespace GoesOn

theorem refl (hin : (st.session c).inTransaction = true) : GoesOn c st st := ⟨hin, rfl⟩

theorem set {s : Session} (hs : s.inTransaction = true) : GoesOn c st (st.setSession c s) :=
  ⟨by rw [session_setSession_self, hs], rfl⟩

end GoesOn

/-- A transaction goes on, and the connection sees the tables that it has seen. -/
def Idles (c : Nat) (st st' : Store) : Prop := GoesOn c st st' ∧ st'.view c = st.view c

namespace Idles

theorem refl (hin : (st.session c).inTransaction = true) : Idles c st st := ⟨.refl hin, rfl⟩

theorem set {s : Session} (hs : s.inTransaction = true)
    (hw : s.working = (st.session c).working) : Idles c st (st.setSession c s) :=
  ⟨.set hs, by rw [view_setSession_self, hw, view]⟩

end Idles

theorem idles_prepare (hin : (st.session c).inTransaction = true) (stmt : Statement) :
    Idles c st (st.prepare c stmt).2 := by
  simp only [prepare]
  split
  · exact .refl hin
  · by_cases hn : needsTables stmt = true
    · simp only [hn, if_true]
      split <;> exact .set hin rfl
    · simp only [hn, Bool.false_eq_true, if_false]
      split <;> exact .refl hin

/-- What a statement does inside of a transaction: it goes on, and the connection sees what the
statement makes of the tables if it succeeds, and otherwise what it has seen. -/
def Does (c : Nat) (stmt : Statement) (params : List Cell) (st : Store)
    (r : Except Fault Answer) (st' : Store) : Prop :=
  GoesOn c st st' ∧
    match r with
    | .ok _ => st'.view c = stmt.apply (st.view c) params
    | .error _ => st'.view c = st.view c

namespace Does

variable {stmt : Statement} {params : List Cell}

theorem failed {f : Fault} (h : Idles c st st') : Does c stmt params st (.error f) st' := h

/-- A statement that does not write. -/
theorem looked {answer : Answer} {e : Effect} (he : stmt.effect? (st.view c) params = some e)
    (hw : stmt.access ≠ .write) (h : Idles c st st') : Does c stmt params st (.ok answer) st' :=
  ⟨h.1, by
    rw [h.2, Statement.apply_of_effect? he, Statement.tables_of_effect? he hw]⟩

theorem read (hin : (st.session c).inTransaction = true) (hw : stmt.access ≠ .write) :
    Does c stmt params st (st.read c stmt params).1 (st.read c stmt params).2 := by
  simp only [Store.read]
  split
  · exact failed (.refl hin)
  · split
    · exact failed (.refl hin)
    · rename_i e he
      exact looked he hw (.set (by simpa using hin) (by simp))

/-- Inside of a transaction a statement that writes has tables of its own to write to. -/
theorem write (hin : (st.session c).inTransaction = true) :
    Does c stmt params st (st.write c stmt params).1 (st.write c stmt params).2 := by
  simp only [Store.write]
  split
  · exact failed (.set (by simpa using hin) (by simp))
  · split
    · exact failed (.set (by simpa using hin) (by simp))
    · rename_i e he
      rw [if_pos (by simpa using hin)]
      refine ⟨.set (by simpa using hin), ?_⟩
      rw [Statement.apply_of_effect? he]
      exact view_setSession_self ..

theorem runPrepared (hin : (st.session c).inTransaction = true) (hp : stmt.access ≠ .control)
    (params : List Cell) :
    Does c stmt (params.map Cell.stored) st (st.runPrepared c stmt params).1
      (st.runPrepared c stmt params).2 := by
  rw [runPrepared_of_ne_control hp]
  split
  · exact failed (.refl hin)
  · split
    · rename_i hr
      exact read hin (by rw [hr]; decide)
    · exact write hin
    · rename_i hnr hnw
      split
      · exact failed (.refl hin)
      · rename_i e he
        exact looked he (fun h => hnw h) (.refl hin)

end Does

/-- **A statement inside of a transaction** that neither begins nor ends one. -/
theorem execute_inside {stmt : Statement} (hin : (st.session c).inTransaction = true)
    (hp : stmt.access ≠ .control) (params : List Cell) :
    Does c stmt (params.map Cell.stored) st (st.execute c stmt params).1
      (st.execute c stmt params).2 := by
  obtain ⟨⟨hin', htables⟩, hview⟩ := idles_prepare hin stmt
  rw [execute]
  split
  · rename_i h
    rw [h] at hin' htables hview
    exact .failed ⟨⟨hin', htables⟩, hview⟩
  · rename_i st₁ h
    rw [h] at hin' htables hview
    obtain ⟨⟨hin'', htables'⟩, hdoes⟩ := Does.runPrepared hin' hp params
    refine ⟨⟨hin'', htables'.trans htables⟩, ?_⟩
    rwa [hview] at hdoes

/-! ### Beginning and ending -/

theorem begin_cases (st : Store) (c : Nat) (mode : BeginMode) :
    (∃ lock, st.begin c mode = (.ok (), st.setSession c ((st.session c).enter lock)) ∧
        (st.session c).inTransaction = false) ∨
      ∃ f, st.begin c mode = (.error f, st) := by
  cases hin : (st.session c).inTransaction with
  | true => exact .inr ⟨_, by rw [begin.eq_def]; simp only [hin, if_true]; rfl⟩
  | false =>
    cases mode with
    | deferred => exact .inl ⟨(st.session c).lock, by rw [begin.eq_def]; simp [hin], rfl⟩
    | immediate =>
      cases hw : st.canWrite c with
      | true => exact .inl ⟨.reserved, by rw [begin.eq_def]; simp [hin, hw], rfl⟩
      | false => exact .inr ⟨st.busy c .run, by rw [begin.eq_def]; simp [hin, hw]⟩

/-- A commit makes the tables of a transaction the committed ones, or nothing happens. -/
theorem commit_cases (st : Store) (c : Nat) :
    (st.commit c = (.ok (), { st with tables := st.view c }.setSession c (st.session c).leave)) ∨
      ∃ f st', st.commit c = (.error f, st') ∧
        ((st.session c).inTransaction = true → Idles c st st') := by
  cases hin : (st.session c).inTransaction with
  | false => exact .inr ⟨_, st, by simp only [commit, hin]; rfl, nofun⟩
  | true =>
    simp only [commit, hin, Bool.not_true, Bool.false_eq_true, if_false]
    split
    · exact .inl rfl
    · exact .inr ⟨_, _, rfl, fun _ => .set rfl rfl⟩

theorem rollback_cases (st : Store) (c : Nat) :
    (st.rollback c = (.ok (), st.setSession c (st.session c).leave) ∧
        (st.session c).inTransaction = true) ∨
      (∃ f, st.rollback c = (.error f, st)) ∧ (st.session c).inTransaction = false := by
  cases hin : (st.session c).inTransaction with
  | true =>
    exact .inl ⟨by simp only [rollback, hin, Bool.not_true, Bool.false_eq_true, if_false], rfl⟩
  | false => exact .inr ⟨⟨_, by simp only [rollback, hin]; rfl⟩, rfl⟩

theorem outside_leave (st : Store) (c : Nat) (s : Session) :
    ((st.setSession c s.leave).session c).inTransaction = false := by
  rw [session_setSession_self]
  rfl

theorem tables_rollback (st : Store) (c : Nat) : (st.rollback c).2.tables = st.tables := by
  obtain ⟨h, -⟩ | ⟨⟨f, h⟩, -⟩ := rollback_cases st c
  · rw [h]
    rfl
  · rw [h]

theorem tables_begin (st : Store) (c : Nat) (mode : BeginMode) :
    (st.begin c mode).2.tables = st.tables := by
  obtain ⟨lock, h, -⟩ | ⟨f, h⟩ := begin_cases st c mode
  · rw [h]
    rfl
  · rw [h]

theorem tables_commit_of_inside (h : ((st.commit c).2.session c).inTransaction = true)
    (hin : (st.session c).inTransaction = true) : (st.commit c).2.tables = st.tables := by
  obtain hc | ⟨f, st', hc, hidles⟩ := commit_cases st c
  · rw [hc, outside_leave] at h
    cases h
  · rw [hc]
    exact (hidles hin).1.tables

/-- A statement that begins or ends a transaction does what the request for that does, or
nothing. -/
theorem execute_control (st : Store) (c : Nat) {stmt : Statement} (hp : stmt.access = .control)
    (params : List Cell) :
    (st.execute c stmt params).2 = st ∨
      (∃ mode, (st.execute c stmt params).2 = (st.begin c mode).2) ∨
      (st.execute c stmt params).2 = (st.commit c).2 ∨
      (st.execute c stmt params).2 = (st.rollback c).2 := by
  have hprepare : st.prepare c stmt = (.ok (), st) := by
    cases stmt with
    | begin | commit | rollback => rfl
    | _ => cases hp
  rw [execute, hprepare]
  simp only [runPrepared]
  split
  · exact .inl rfl
  · cases stmt with
    | begin mode => exact .inr (.inl ⟨mode, rfl⟩)
    | commit => exact .inr (.inr (.inl rfl))
    | rollback => exact .inr (.inr (.inr rfl))
    | _ => cases hp

/-- **A request inside of a transaction** ends it, or nobody sees what it does. -/
theorem perform_inside (hin : (st.session c).inTransaction = true) (request : Request Statement)
    (hin' : ((st.perform c request).2.session c).inTransaction = true) :
    (st.perform c request).2.tables = st.tables := by
  cases request with
  | begin mode => exact tables_begin st c mode
  | commit => exact tables_commit_of_inside hin' hin
  | rollback => exact tables_rollback st c
  | run stmt params =>
    have hrun : st.perform c (.run stmt params) = st.execute c stmt params := rfl
    rw [hrun] at hin' ⊢
    by_cases hp : stmt.access = .control
    · obtain h | ⟨mode, h⟩ | h | h := execute_control st c hp params
      · rw [h]
      · rw [h, tables_begin]
      · rw [h] at hin' ⊢
        exact tables_commit_of_inside hin' hin
      · rw [h, tables_rollback]
    · exact (execute_inside hin hp params).1.tables

/-! ## The promises -/

theorem perform_begin (st : Store) (c : Nat) (mode : BeginMode) :
    engine.perform st c (.begin mode) =
      ((st.begin c mode).1.map fun _ => {}, (st.begin c mode).2) := rfl

theorem perform_commit (st : Store) (c : Nat) :
    engine.perform st c .commit = ((st.commit c).1.map fun _ => {}, (st.commit c).2) := rfl

theorem perform_rollback (st : Store) (c : Nat) :
    engine.perform st c .rollback = ((st.rollback c).1.map fun _ => {}, (st.rollback c).2) := rfl

/-- The store keeps the promises on transactions and connections. -/
theorem lawful : engine.Lawful where
  connect st c st' h := by
    have h : st.connect c = (.ok (), st') := h
    rw [connect] at h
    split at h <;> cases h
    exact congrArg Session.inTransaction (session_setSession_self ..)
  begin st c mode answer st' h := by
    obtain ⟨lock, hb, -⟩ | ⟨f, hb⟩ := begin_cases st c mode
    · rw [perform_begin, hb] at h
      cases h
      exact congrArg Session.inTransaction (session_setSession_self ..)
    · rw [perform_begin, hb] at h
      cases h
  commit st c answer st' h := by
    obtain hc | ⟨f, st'', hc, -⟩ := commit_cases st c
    · rw [perform_commit, hc] at h
      cases h
      exact outside_leave ..
    · rw [perform_commit, hc] at h
      cases h
  rollback st c answer st' h := by
    obtain ⟨hr, -⟩ | ⟨⟨f, hr⟩, -⟩ := rollback_cases st c
    · rw [perform_rollback, hr] at h
      cases h
      exact outside_leave ..
    · rw [perform_rollback, hr] at h
      cases h
  rollback_inside st c hin := by
    obtain ⟨hr, -⟩ | ⟨-, hout⟩ := rollback_cases st c
    · exact ⟨{}, _, by rw [perform_rollback, hr]; rfl⟩
    · exact Bool.noConfusion (hin.symm.trans hout)
  connect_other st c c' hc := by
    have h : (st.connect c).2.session c' = st.session c' := by
      rw [connect]
      split
      · exact session_setSession_of_ne st {} hc
      · rfl
    exact congrArg Session.inTransaction h
  setWait_other st c ms c' hc :=
    congrArg Session.inTransaction (session_setSession_of_ne st _ hc)
  perform_other st c request c' hc :=
    congrArg Session.inTransaction ((Keeps.perform st c request).others c' hc)

/-- The tables of the store. -/
@[reducible] def contents : engine.Contents where
  Tables := Tables
  tables := tables
  view := view

/-- The store keeps the promises on tables. -/
theorem atomic : contents.Atomic where
  connect st c := by
    show (st.connect c).2.tables = st.tables
    rw [connect]
    split <;> rfl
  setWait st c ms := rfl
  begin st c mode answer st' h := by
    obtain ⟨lock, hb, -⟩ | ⟨f, hb⟩ := begin_cases st c mode
    · rw [perform_begin, hb] at h
      cases h
      exact ⟨rfl, view_setSession_self ..⟩
    · rw [perform_begin, hb] at h
      cases h
  begin_failed st c mode f st' h := by
    have hst' : st' = (st.begin c mode).2 := congrArg Prod.snd h.symm
    rw [hst']
    exact tables_begin st c mode
  commit st c answer st' hin h := by
    obtain hc | ⟨f, st'', hc, -⟩ := commit_cases st c
    · rw [perform_commit, hc] at h
      cases h
      rfl
    · rw [perform_commit, hc] at h
      cases h
  commit_failed st c f st' hin h := by
    obtain hc | ⟨f', st'', hc, hidles⟩ := commit_cases st c
    · rw [perform_commit, hc] at h
      cases h
    · rw [perform_commit, hc] at h
      cases h
      exact ⟨(hidles hin).1.inside, (hidles hin).2⟩
  rollback := tables_rollback
  isolated _ _ := fun request hin => perform_inside hin request

/-- A statement that neither begins nor ends a transaction is plain. -/
theorem plain {stmt : Statement} (hp : stmt.access ≠ .control) : contents.Plain stmt := by
  intro st c params r st' hin h
  obtain ⟨hgoesOn, hview⟩ := execute_inside hin hp params
  have h : st.execute c stmt params = (r, st') := h
  rw [h] at hgoesOn hview
  refine ⟨hgoesOn.inside, fun herror => ?_⟩
  cases r with
  | ok answer => cases herror
  | error f => exact hview

/-- What plain statements make of tables can be computed. -/
theorem eq_replay {base tables : contents.Tables} {ws : List (Command engine)}
    (h : contents.Replays base ws tables) (hp : ∀ w ∈ ws, w.stmt.access ≠ .control) :
    tables = replay base ws := by
  induction h with
  | nil => rfl
  | @concat ws w st st' c answer _ hin hrun ih =>
    have hdoes := execute_inside hin (hp w (List.mem_append_right _ (List.mem_singleton_self w)))
      (w.params.map Cell.ofValue)
    have hrun : st.execute c w.stmt (w.params.map Cell.ofValue) = (.ok answer, st') := hrun
    rw [hrun] at hdoes
    have hbefore := ih fun w' hw' => hp w' (List.mem_append_left _ hw')
    calc st'.view c = w.stmt.apply (st.view c) ((w.params.map Cell.ofValue).map Cell.stored) :=
          hdoes.2
      _ = w.stmt.apply (replay base ws) ((w.params.map Cell.ofValue).map Cell.stored) :=
          congrArg (fun tables => w.stmt.apply tables _) hbefore
      _ = replay base (ws ++ [w]) := by rw [replay, replay, List.foldl_append]; rfl

end Store

end ScriptHost.Database
