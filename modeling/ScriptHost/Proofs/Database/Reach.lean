import ScriptHost.Database.Transaction
import Mathlib.Data.List.Basic
import Mathlib.Data.List.Perm.Basic

/-!
# The states of a database

A database is used by any number of callers at the same time, each of whom takes a connection, makes
requests on it and gives it back.  `Reached` are the states that this can lead to, in any order of
their steps and at any time, with any number of transactions in progress, together with the
connections that are out.

* `checkout_cases` — what taking a connection can come to.
* `Touches` — what a call does that is made on one connection: at most one request, and it takes
  time.
* `Reached.sound` — a connection is idle or out, and not twice, and the next one to be opened is
  none of them.
* `Call.reached` — programs, however they are nested, lead from such states to such states, and give
  back what they take.

Nothing is asked of the engine here.
-/

set_option autoImplicit false

namespace ScriptHost.Database

variable {E : Engine} {db db' db'' : Database E} {c : Nat} {out : List Nat}

/-! ## Taking a connection -/

/-- The ways to a connection: it has been idle, or it is a new one. -/
inductive Grants (db : Database E) : Nat → Database E → Prop
  | idle {c : Nat} {idle : List Nat} : db.pool.idle = c :: idle →
      Grants db c { db with pool := { db.pool with idle } }
  | opened {created : Nat} {store : E.State} : E.connect db.store db.opened = (.ok (), store) →
      Grants db db.opened
        { db with pool := { db.pool with created }, store, opened := db.opened + 1 }

/-- The ways to none: the pool has none to give, or none can be opened. -/
inductive Declines (db : Database E) : Database E → Prop
  | refused (clock : Clock) : Declines db { db with clock }
  | failed {f : Fault} {store : E.State} {created : Nat} {clock : Clock} :
      E.connect db.store db.opened = (.error f, store) →
      Declines db { db with pool := { db.pool with created }, store, clock }

theorem checkout_cases (db : Database E) (deadline : Deadline) :
    (∃ c db', Grants db c db' ∧ db.checkout deadline = db'.lend c deadline) ∨
      ∃ e db', Declines db db' ∧ db.checkout deadline = (.returned (.error e), db') := by
  rw [checkout, callPool, Pool.attempt]
  by_cases hz : db.pool.maxSize = 0
  · rw [if_pos hz]
    exact .inr ⟨_, _, .refused db.clock, rfl⟩
  · rw [if_neg hz]
    cases hi : db.pool.idle with
    | cons c idle => exact .inl ⟨c, _, .idle hi, rfl⟩
    | nil =>
      by_cases hfull : db.pool.maxSize ≤ db.pool.created
      · simp only [hfull, if_true]
        exact .inr ⟨_, _, .refused _, rfl⟩
      · simp only [hfull, if_false]
        rcases hc : E.connect db.store db.opened with ⟨f | u, store⟩
        · exact .inr ⟨_, _, .failed hc, by rw [← hi]; rfl⟩
        · exact .inl ⟨_, _, .opened hc, by rw [← hi]⟩

/-- A connection can be lent to a caller, or the caller breaks down. -/
theorem lend_cases (db : Database E) (c : Nat) (deadline : Deadline) :
    (∃ ms, db.lend c deadline =
        (.returned (.ok c), { db with store := E.setWait db.store c ms })) ∨
      db.lend c deadline = (.panicked, db) := by
  simp only [lend]
  split
  · exact .inr rfl
  · exact .inl ⟨_, rfl⟩

/-- The connection that a caller has got. -/
def Ending.lent : Ending Nat → List Nat
  | .returned (.ok c) => [c]
  | _ => []

/-- A caller has got the connection that was granted. -/
theorem eq_of_checkout {deadline : Deadline} (h : db.checkout deadline = (.returned (.ok c), db')) :
    ∃ db₁ ms, Grants db c db₁ ∧ db' = { db₁ with store := E.setWait db₁.store c ms } := by
  obtain ⟨c₁, db₁, hgrants, hr⟩ | ⟨e, db₁, -, hr⟩ := checkout_cases db deadline
  · obtain ⟨ms, hl⟩ | hl := lend_cases db₁ c₁ deadline
    · rw [hr, hl] at h
      cases h
      exact ⟨db₁, ms, hgrants, rfl⟩
    · rw [hr, hl] at h
      cases h
  · rw [hr] at h
    cases h

/-! ## Using a connection -/

/-- What a call does that is made on the connection `c`: at most one request, and it may take
time. -/
inductive Touches (c : Nat) (db : Database E) : Database E → Prop
  | wait (clock : Clock) : Touches c db { db with clock }
  | request (request : Request E.Statement) (clock : Clock) :
      Touches c db { db with store := (E.perform db.store c request).2, clock }

namespace Touches

theorem refl (c : Nat) (db : Database E) : Touches c db db := .wait db.clock

theorem of_perform {request : Request E.Statement} {r : Except Fault Answer} {store : E.State}
    (h : E.perform db.store c request = (r, store)) (clock : Clock) :
    Touches c db { db with store, clock } := by
  have hstore : store = (E.perform db.store c request).2 := by rw [h]
  exact hstore ▸ .request request clock

theorem runQuery (db : Database E) (c : Nat) (stmt : E.Statement) (params : List Value) :
    Touches c db (db.runQuery c stmt params).2 := by
  rw [Database.runQuery]
  split
  · rename_i h
    exact of_perform h db.clock
  · rename_i h
    exact of_perform h _

theorem runExec (db : Database E) (c : Nat) (stmt : E.Statement) (params : List Value) :
    Touches c db (db.runExec c stmt params).2 := by
  rw [Database.runExec]
  split
  · rename_i h
    exact of_perform h db.clock
  · rename_i h
    exact of_perform h _

theorem ping (db : Database E) (c : Nat) : Touches c db (db.ping c).2 := by
  rw [Database.ping]
  split
  · rename_i h
    exact of_perform h db.clock
  · rename_i h
    exact of_perform h _

theorem finish (tx : Transaction) (db : Database E) (o : TxOutcome) :
    Touches tx.connection db (tx.finish db o).2.2 := by
  rw [Transaction.finish]
  split
  · rename_i h
    exact of_perform h db.clock
  · rename_i h
    exact of_perform h _

/-- A call inside of a transaction is made on the connection of the transaction. -/
theorem run (tx : Transaction) (db : Database E) (call : TxCall E) :
    Touches tx.connection db (tx.run db call).2.2 := by
  cases call with
  | query stmt params =>
    rw [Transaction.run]
    split
    · exact refl ..
    · exact runQuery ..
  | exec stmt params =>
    rw [Transaction.run]
    split
    · exact refl ..
    · exact runExec ..
  | commit =>
    rw [Transaction.run]
    split
    · exact refl ..
    · exact finish ..
  | rollback =>
    rw [Transaction.run]
    split
    · exact refl ..
    · exact finish ..
  | outcome => exact refl ..
  | cancel => exact .wait _

theorem begin (db : Database E) (c : Nat) (plan : IsolationPlan) (deadline : Deadline)
    (token : Token) : Touches c db (db.begin c plan deadline token).2 := by
  rw [Database.begin]
  split
  · exact refl ..
  · split
    · rename_i h
      exact of_perform h db.clock
    · rename_i h
      exact of_perform h _

theorem conclude (tx : Transaction) (db : Database E) (ending : Ending Unit) :
    Touches tx.connection db (tx.conclude db ending).2 := by
  cases ending with
  | panicked => exact refl ..
  | returned result =>
    cases result with
    | error e =>
      rw [Transaction.conclude]
      split
      · exact .request .rollback db.clock
      · exact refl ..
    | ok u =>
      rw [Transaction.conclude]
      split
      · exact refl ..
      · have h := finish tx db .rolledBack
        split <;> · rename_i hf; rwa [hf] at h

end Touches

/-- A transaction stays on its connection. -/
theorem connection_run (tx : Transaction) (db : Database E) (call : TxCall E) :
    (tx.run db call).2.1.connection = tx.connection := by
  have hfinish (o : TxOutcome) : (tx.finish db o).2.1.connection = tx.connection := by
    rw [Transaction.finish]
    split <;> rfl
  cases call with
  | query | exec =>
    rw [Transaction.run]
    split <;> rfl
  | commit =>
    rw [Transaction.run]
    split
    · rfl
    · exact hfinish .committed
  | rollback =>
    rw [Transaction.run]
    split
    · rfl
    · exact hfinish .rolledBack
  | outcome | cancel => rfl

theorem connection_of_begin {plan : IsolationPlan} {deadline : Deadline} {token : Token}
    {tx : Transaction} (h : db.begin c plan deadline token = (.ok tx, db')) :
    tx.connection = c ∧ tx.outcome = none := by
  rw [Database.begin] at h
  split at h
  · cases h
  · split at h <;> cases h
    exact ⟨rfl, rfl⟩

/-! ## Transactions -/

/-- The ways in which a transaction does not come to its script: its level is refused, it gets no
connection, or it cannot be begun on the one that it gets. -/
inductive Misses (db : Database E) (deadline : Deadline) (token : Token) : Database E → Prop
  | level : Misses db deadline token db
  | refused {ending : Ending Nat} {db' : Database E} : db.checkout deadline = (ending, db') →
      ending.lent = [] → Misses db deadline token db'
  | begin {c : Nat} {db₀ db₁ : Database E} {plan : IsolationPlan} {e : Failure} :
      db.checkout deadline = (.returned (.ok c), db₀) →
      db₀.begin c plan deadline token = (.error e, db₁) → Misses db deadline token (db₁.release c)

/-- What a transaction needs to come to its script: a connection, and to be begun on it. -/
structure Begins (db : Database E) (deadline : Deadline) (token : Token) (tx : Transaction)
    (db₁ : Database E) : Prop where
  outcome : tx.outcome = none
  begun : ∃ plan db₀, db.checkout deadline = (.returned (.ok tx.connection), db₀) ∧
    db₀.begin tx.connection plan deadline token = (.ok tx, db₁)

/-- A transaction does not come to its script, or the script runs once the transaction has begun. -/
theorem transact_cases (db : Database E) (level : IsolationLevel) (deadline : Deadline)
    (token : Token) :
    (∃ ending db', Misses db deadline token db' ∧
        ∀ {α : Type}
          (script : Transaction → Database E → α × Ending Unit × Transaction × Database E),
          transact db level deadline token script = (none, ending, db')) ∨
      ∃ tx db₁, Begins db deadline token tx db₁ ∧
        ∀ {α : Type}
          (script : Transaction → Database E → α × Ending Unit × Transaction × Database E),
          let (words, ending, tx', db₂) := script tx db₁
          transact db level deadline token script =
            (some words, (tx'.conclude db₂ ending).1,
              (tx'.conclude db₂ ending).2.release tx.connection) := by
  rcases hp : IsolationPlan.ofLevel level with e | plan
  · exact .inl ⟨_, db, .level, fun script => by rw [transact, hp]⟩
  · rcases hc : db.checkout deadline with ⟨(e | c) | -, db₀⟩
    · exact .inl ⟨_, db₀, .refused hc rfl, fun script => by rw [transact, hp, hc]⟩
    · rcases hb : db₀.begin c plan deadline token with ⟨e | tx, db₁⟩
      · exact .inl ⟨.returned (.error e), _, .begin hc hb,
          fun script => by simp only [transact, hp, hc, hb]⟩
      · obtain ⟨rfl, ho⟩ := connection_of_begin hb
        exact .inr ⟨tx, db₁, ⟨ho, plan, db₀, hc, hb⟩,
          fun script => by simp only [transact, hp, hc, hb]⟩
    · exact .inl ⟨_, db₀, .refused hc rfl, fun script => by rw [transact, hp, hc]⟩

/-! ## The states that callers reach -/

/-- The states of a database, with any number of calls in progress, and the connections that are
out: callers take and give back connections, make requests of any kind on those that they have, and
time passes. -/
inductive Reached : Database E → List Nat → Prop
  /-- A database that has not been used yet. -/
  | new {db : Database E} : db.pool.idle = [] → Reached db []
  | checkout {db : Database E} {out : List Nat} (deadline : Deadline) : Reached db out →
      Reached (db.checkout deadline).2 ((db.checkout deadline).1.lent ++ out)
  | release {db : Database E} {out : List Nat} {c : Nat} : Reached db out → c ∈ out →
      Reached (db.release c) (out.erase c)
  | touch {db db' : Database E} {out : List Nat} {c : Nat} : Reached db out → c ∈ out →
      Touches c db db' → Reached db' out
  | elapse {db : Database E} {out : List Nat} (clock : Clock) : Reached db out →
      Reached { db with clock } out
  | issue {db : Database E} {out : List Nat} (tokens : Nat) : Reached db out →
      Reached { db with tokens } out

/-- The connections of a database, each at one place. -/
structure Sound (db : Database E) (out : List Nat) : Prop where
  apart : (db.pool.idle ++ out).Nodup
  numbered : ∀ c ∈ db.pool.idle ++ out, c < db.opened

theorem Sound.grants (h : Sound db out) (hg : Grants db c db') : Sound db' (c :: out) := by
  cases hg with
  | @idle _ idle hidle =>
    have hperm : (idle ++ c :: out).Perm (db.pool.idle ++ out) := by
      rw [hidle]
      exact List.perm_middle
    exact ⟨hperm.nodup_iff.2 h.apart, fun c' hc' => h.numbered c' (hperm.mem_iff.1 hc')⟩
  | opened _ =>
    refine ⟨List.perm_middle.nodup_iff.2 (List.nodup_cons.2 ⟨fun hmem => ?_, h.apart⟩),
      fun c' hc' => ?_⟩
    · exact Nat.lt_irrefl _ (h.numbered _ hmem)
    · rcases List.mem_cons.1 (List.perm_middle.mem_iff.1 hc') with rfl | hc'
      · exact Nat.lt_succ_self _
      · exact Nat.lt_succ_of_lt (h.numbered c' hc')

theorem Sound.declines (h : Sound db out) (hd : Declines db db') : Sound db' out := by
  cases hd <;> exact ⟨h.apart, h.numbered⟩

theorem Sound.touches (h : Sound db out) (ht : Touches c db db') : Sound db' out := by
  cases ht <;> exact ⟨h.apart, h.numbered⟩

theorem Sound.drop (h : Sound db (c :: out)) : Sound db out :=
  have hsub : (db.pool.idle ++ out).Sublist (db.pool.idle ++ c :: out) :=
    (List.sublist_cons_self c out).append_left _
  ⟨hsub.nodup h.apart, fun c' hc' => h.numbered c' (hsub.subset hc')⟩

theorem Sound.checkout (h : Sound db out) (deadline : Deadline) :
    Sound (db.checkout deadline).2 ((db.checkout deadline).1.lent ++ out) := by
  obtain ⟨c, db₁, hg, hr⟩ | ⟨e, db₁, hd, hr⟩ := checkout_cases db deadline
  · have h₁ := h.grants hg
    obtain ⟨ms, hl⟩ | hl := lend_cases db₁ c deadline
    · rw [hr, hl]
      exact ⟨h₁.apart, h₁.numbered⟩
    · rw [hr, hl]
      exact h₁.drop
  · rw [hr]
    exact h.declines hd

theorem Sound.release (h : Sound db out) (hc : c ∈ out) : Sound (db.release c) (out.erase c) :=
  have hperm : (db.pool.idle ++ out).Perm (c :: db.pool.idle ++ out.erase c) :=
    ((List.perm_cons_erase hc).append_left _).trans List.perm_middle
  ⟨hperm.nodup h.apart, fun c' hc' => h.numbered c' (hperm.mem_iff.2 hc')⟩

/-- **A connection is idle or out, and not twice.** -/
theorem Reached.sound (h : Reached db out) : Sound db out := by
  induction h with
  | @new db hidle => exact ⟨by rw [hidle]; exact List.nodup_nil, by rw [hidle]; exact nofun⟩
  | checkout deadline _ ih => exact ih.checkout deadline
  | release _ hc ih => exact ih.release hc
  | touch _ _ ht ih => exact ih.touches ht
  | elapse _ _ ih => exact ⟨ih.apart, ih.numbered⟩
  | issue _ _ ih => exact ⟨ih.apart, ih.numbered⟩

theorem Reached.lent (h : Reached db out) {deadline : Deadline}
    (hc : db.checkout deadline = (.returned (.ok c), db')) : Reached db' (c :: out) := by
  have h' := h.checkout deadline
  rwa [hc] at h'

/-- The script of a transaction has its connection. -/
theorem Reached.begins (h : Reached db out) {deadline : Deadline} {token : Token}
    {tx : Transaction} (hb : Begins db deadline token tx db') :
    Reached db' (tx.connection :: out) := by
  obtain ⟨plan, db₀, hc, hbegin⟩ := hb.begun
  have htouches := Touches.begin db₀ tx.connection plan deadline token
  rw [hbegin] at htouches
  exact (h.lent hc).touch List.mem_cons_self htouches

/-! ## Programs

A call that is over has given its connection back, so it leaves those that are out as they were.
That is what lets a script use its own connection again after a call from outside of its
transaction. -/

/-- What happens between two states leads from reached states to reached ones. -/
def Stays (db db' : Database E) : Prop := ∀ out, Reached db out → Reached db' out

/-- So does what happens on the connection `c`, if it is out. -/
def StaysOn (c : Nat) (db db' : Database E) : Prop :=
  ∀ out, c ∈ out → Reached db out → Reached db' out

namespace Stays

theorem refl (db : Database E) : Stays db db := fun _ h => h

theorem trans (h : Stays db db') (h' : Stays db' db'') : Stays db db'' := fun out hr =>
  h' out (h out hr)

/-- A connection is taken, used and given back. -/
theorem borrow {deadline : Deadline} (hc : db.checkout deadline = (.returned (.ok c), db'))
    (h : StaysOn c db' db'') : Stays db (db''.release c) := fun out hr => by
  have hr'' := (h _ List.mem_cons_self (hr.lent hc)).release List.mem_cons_self
  rwa [List.erase_cons_head] at hr''

/-- A caller that gets no connection. -/
theorem refused {deadline : Deadline} {ending : Ending Nat}
    (hc : db.checkout deadline = (ending, db')) (hnone : ending.lent = []) : Stays db db' :=
  fun out hr => by
    have h := hr.checkout deadline
    rwa [hc, hnone] at h

theorem withConnection {α : Type} (deadline : Deadline)
    {f : Nat → Database E → Outcome α × Database E} (hf : ∀ c db, StaysOn c db (f c db).2) :
    Stays db (db.withConnection deadline f).2 := by
  rw [Database.withConnection]
  split
  · rename_i hc
    exact refused hc rfl
  · rename_i hc
    exact refused hc rfl
  · rename_i c db' hc
    exact borrow hc (hf c db')

end Stays

namespace StaysOn

theorem of_touches (h : Touches c db db') : StaysOn c db db' := fun _ hc hr => hr.touch hc h

theorem of_stays (h : Stays db db') : StaysOn c db db' := fun out _ hr => h out hr

theorem refl (c : Nat) (db : Database E) : StaysOn c db db := fun _ _ hr => hr

theorem trans (h : StaysOn c db db') (h' : StaysOn c db' db'') : StaysOn c db db'' :=
  fun out hc hr => h' out hc (h out hc hr)

end StaysOn

/-- A transaction takes a connection and gives it back, whatever its script does in between. -/
theorem Stays.transact {α : Type} {level : IsolationLevel} {deadline : Deadline} {token : Token}
    {script : Transaction → Database E → α × Ending Unit × Transaction × Database E}
    (hs : ∀ tx db, StaysOn tx.connection db (script tx db).2.2.2 ∧
      (script tx db).2.2.1.connection = tx.connection) :
    Stays db (Database.transact db level deadline token script).2.2 := by
  rw [Database.transact]
  split
  · exact refl db
  · split
    · rename_i hc
      exact refused hc rfl
    · rename_i hc
      exact refused hc rfl
    · rename_i plan _ _ c db₁ hc
      have hb := Touches.begin db₁ c plan deadline token
      split
      · rename_i he
        rw [he] at hb
        exact borrow hc (.of_touches hb)
      · rename_i tx db₂ he
        rw [he] at hb
        obtain ⟨rfl, -⟩ := connection_of_begin he
        obtain ⟨hscript, hconn⟩ := hs tx db₂
        have hconclude := Touches.conclude (script tx db₂).2.2.1 (script tx db₂).2.2.2
          (script tx db₂).2.1
        rw [hconn] at hconclude
        exact borrow hc ((StaysOn.of_touches hb).trans (hscript.trans (.of_touches hconclude)))

mutual

/-- **Programs stay within the states that are reached**, and give back what they take. -/
theorem Call.reached {α : Type} (call : Call E α) (db : Database E) : Stays db (call.run db).2 :=
  match call with
  | .query stmt params limit => by
    rw [Call.run]
    refine Stays.withConnection _ fun c db => ?_
    split
    · exact .of_touches (.runQuery ..)
    · exact .refl c db
  | .exec stmt params limit => by
    rw [Call.run]
    refine Stays.withConnection _ fun c db => ?_
    split
    · exact .of_touches (.runExec ..)
    · exact .refl c db
  | .pool => by
    rw [Call.run]
    exact Stays.refl db
  | .hold limit program => by
    rw [Call.run]
    split
    · rename_i hc
      exact Stays.refused hc rfl
    · rename_i hc
      exact Stays.refused hc rfl
    · rename_i c db' hc
      exact Stays.borrow hc (.of_stays (Program.reached program db'))
  | .transaction level limit script => by
    rw [Call.run]
    have h : Stays db { db with tokens := db.tokens + 1 } := fun _ hr => .issue _ hr
    exact h.trans (Stays.transact fun tx db => Script.reached script tx db)

theorem Program.reached {α : Type} (program : Program E α) (db : Database E) :
    Stays db (program.run db).2 :=
  match program with
  | .done words => by
    rw [Program.run]
    exact Stays.refl db
  | .call c next => by
    rw [Program.run]
    exact (Call.reached c db).trans (Program.reached (next (c.run db).1) (c.run db).2)

theorem Script.reached {α : Type} (script : Script E α) (tx : Transaction) (db : Database E) :
    StaysOn tx.connection db (script.run tx db).2.2.2 ∧
      (script.run tx db).2.2.1.connection = tx.connection :=
  match script with
  | .done words ending => by
    rw [Script.run]
    exact ⟨.refl _ db, rfl⟩
  | .call c next => by
    rw [Script.run]
    obtain ⟨h, hconn⟩ :=
      Script.reached (next (tx.run db c).1) (tx.run db c).2.1 (tx.run db c).2.2
    rw [connection_run] at h hconn
    exact ⟨(StaysOn.of_touches (.run tx db c)).trans h, hconn⟩
  | .outside c next => by
    rw [Script.run]
    obtain ⟨h, hconn⟩ := Script.reached (next (c.run db).1) tx (c.run db).2
    exact ⟨(StaysOn.of_stays (Call.reached c db)).trans h, hconn⟩

end

/-- A database that has been opened is reached, with nothing out. -/
theorem reached_of_open {clock : Clock} {driver connection : String} {poolSize : Nat}
    {store : Target → E.State} (h : Database.open clock driver connection poolSize store = .ok db) :
    Reached db [] := by
  rw [Database.open] at h
  split at h
  · cases h
  · rename_i driver _
    have hnew : Reached (E := E)
        { driver, connection, pool := .ofTarget (.ofText connection) poolSize
          store := store (.ofText connection), clock } [] := by
      refine .new ?_
      cases Target.ofText connection <;> rfl
    have hstays := Stays.withConnection (.after clock defaultWaitMs)
      (f := fun c db => db.ping c) (fun c db => .of_touches (Touches.ping db c)) [] hnew
    simp only at h
    split at h <;> cases h
    rename_i hping
    rwa [hping] at hstays

end ScriptHost.Database
