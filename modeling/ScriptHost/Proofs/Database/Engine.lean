import ScriptHost.Database.Engine

/-!
# What is asked of an engine

Nothing is known of the engine of a database but what it promises.  The promises are kept apart, so
that each result names those that it needs.

* `Engine.Lawful` — which requests put a connection inside of a transaction and which end one, that
  a transaction can always be rolled back, and that connections leave one another alone.  Any
  statement may begin or end a transaction.
* `Engine.Contents` — the tables of an engine, as they are for good and as a connection sees them.
* `Engine.Contents.Isolated` — nothing of a transaction lasts as long as it goes on.
* `Engine.Contents.Atomic` — besides, a transaction begins with the tables that there are, and a
  commit makes its own tables those that there are.
* `Engine.Contents.Plain` — a statement that ends no transaction and changes nothing if it fails.
* `Engine.Contents.Replays` — what commands make of tables, one after the other.
-/

set_option autoImplicit false

namespace ScriptHost.Database

/-- A statement with its parameters. -/
structure Command (E : Engine) where
  stmt : E.Statement
  params : List Value

/-- The request that a command is run with. -/
def Command.request {E : Engine} (w : Command E) : Request E.Statement :=
  .run w.stmt (w.params.map Cell.ofValue)

/-! ## Promises -/

/-- What an engine promises about transactions and connections. -/
structure Engine.Lawful (E : Engine) : Prop where
  /-- A new connection is outside of any transaction. -/
  connect : ∀ s c s', E.connect s c = (.ok (), s') → E.inTransaction s' c = false
  begin : ∀ s c mode answer s', E.perform s c (.begin mode) = (.ok answer, s') →
    E.inTransaction s' c = true
  commit : ∀ s c answer s', E.perform s c .commit = (.ok answer, s') → E.inTransaction s' c = false
  rollback : ∀ s c answer s', E.perform s c .rollback = (.ok answer, s') →
    E.inTransaction s' c = false
  /-- A transaction can always be rolled back. -/
  rollback_inside : ∀ s c, E.inTransaction s c = true →
    ∃ answer s', E.perform s c .rollback = (.ok answer, s')
  connect_other : ∀ s c c', c' ≠ c →
    E.inTransaction (E.connect s c).2 c' = E.inTransaction s c'
  setWait_other : ∀ s c ms c', c' ≠ c →
    E.inTransaction (E.setWait s c ms) c' = E.inTransaction s c'
  perform_other : ∀ s c request c', c' ≠ c →
    E.inTransaction (E.perform s c request).2 c' = E.inTransaction s c'

/-- A connection that is rolled back before it is given back is outside of any transaction, and the
others stay as they are. -/
theorem Engine.Lawful.inside_of_rollback {E : Engine} (h : E.Lawful) {s : E.State} {c c' : Nat}
    (hin : E.inTransaction (if E.inTransaction s c then (E.perform s c .rollback).2 else s) c' =
      true) : c' ≠ c ∧ E.inTransaction s c' = true := by
  by_cases hc : E.inTransaction s c = true
  · rw [if_pos hc] at hin
    obtain ⟨answer, s', hr⟩ := h.rollback_inside _ _ hc
    have hne : c' ≠ c := by
      rintro rfl
      rw [hr, h.rollback _ _ _ _ hr] at hin
      cases hin
    exact ⟨hne, h.perform_other _ _ _ _ hne ▸ hin⟩
  · rw [if_neg hc] at hin
    exact ⟨fun heq => hc (heq ▸ hin), hin⟩

/-- The tables of an engine. -/
structure Engine.Contents (E : Engine) where
  Tables : Type
  /-- The tables as they are for good. -/
  tables : E.State → Tables
  /-- The tables as a connection sees them. -/
  view : E.State → Nat → Tables

namespace Engine.Contents

variable {E : Engine}

/-- Nobody sees what a transaction does as long as it goes on. -/
def Isolated (C : E.Contents) : Prop :=
  ∀ s c request, E.inTransaction s c = true →
    E.inTransaction (E.perform s c request).2 c = true →
    C.tables (E.perform s c request).2 = C.tables s

/-- What an engine promises about its tables. -/
structure Atomic (C : E.Contents) : Prop where
  connect : ∀ s c, C.tables (E.connect s c).2 = C.tables s
  setWait : ∀ s c ms, C.tables (E.setWait s c ms) = C.tables s
  begin : ∀ s c mode answer s', E.perform s c (.begin mode) = (.ok answer, s') →
    C.tables s' = C.tables s ∧ C.view s' c = C.tables s
  begin_failed : ∀ s c mode f s', E.perform s c (.begin mode) = (.error f, s') →
    C.tables s' = C.tables s
  commit : ∀ s c answer s', E.inTransaction s c = true →
    E.perform s c .commit = (.ok answer, s') → C.tables s' = C.view s c
  /-- A commit that fails changes nothing. -/
  commit_failed : ∀ s c f s', E.inTransaction s c = true →
    E.perform s c .commit = (.error f, s') →
    E.inTransaction s' c = true ∧ C.view s' c = C.view s c
  rollback : ∀ s c, C.tables (E.perform s c .rollback).2 = C.tables s
  isolated : C.Isolated

/-- A statement that leaves its connection inside of a transaction, and changes nothing if it
fails. -/
def Plain (C : E.Contents) (stmt : E.Statement) : Prop :=
  ∀ s c params r s', E.inTransaction s c = true → E.perform s c (.run stmt params) = (r, s') →
    E.inTransaction s' c = true ∧ (r.isOk = false → C.view s' c = C.view s c)

/-- What becomes of tables when commands are run on them, one after the other and each with success,
by connections that see what the ones before have made. -/
inductive Replays (C : E.Contents) (base : C.Tables) : List (Command E) → C.Tables → Prop
  | nil : Replays C base [] base
  | concat {ws : List (Command E)} {w : Command E} {s s' : E.State} {c : Nat} {answer : Answer} :
      Replays C base ws (C.view s c) → E.inTransaction s c = true →
      E.perform s c w.request = (.ok answer, s') → Replays C base (ws ++ [w]) (C.view s' c)

/-! ## Inside of a transaction -/

/-- The connection is inside of a transaction begun on the tables `base`, in which the commands `ws`
have been run. -/
structure Within (C : E.Contents) (s : E.State) (c : Nat) (base : C.Tables)
    (ws : List (Command E)) : Prop where
  inside : E.inTransaction s c = true
  tables : C.tables s = base
  view : C.Replays base ws (C.view s c)

variable {C : E.Contents} {s s' : E.State} {c : Nat}

theorem Atomic.within_of_begin (h : C.Atomic) (hE : E.Lawful) {mode : BeginMode} {answer : Answer}
    (hb : E.perform s c (.begin mode) = (.ok answer, s')) : C.Within s' c (C.tables s) [] := by
  obtain ⟨htables, hview⟩ := h.begin _ _ _ _ _ hb
  exact ⟨hE.begin _ _ _ _ _ hb, htables, hview ▸ .nil⟩

namespace Within

variable {base : C.Tables} {ws : List (Command E)}

/-- **A plain statement inside of a transaction** joins its commands if it succeeds, and changes
nothing if it fails. -/
theorem run (h : C.Within s c base ws) (hC : C.Atomic) {w : Command E} (hp : C.Plain w.stmt)
    {r : Except Fault Answer} (hr : E.perform s c w.request = (r, s')) :
    match r with
    | .ok _ => C.Within s' c base (ws ++ [w])
    | .error _ => C.Within s' c base ws := by
  obtain ⟨hin, hsame⟩ := hp _ _ _ _ _ h.inside hr
  have htables : C.tables s' = base := by
    have hisolated := hC.isolated s c w.request h.inside (by rwa [hr])
    rw [hr] at hisolated
    exact hisolated.trans h.tables
  cases r with
  | ok answer => exact ⟨hin, htables, .concat h.view h.inside hr⟩
  | error f => exact ⟨hin, htables, by rw [hsame rfl]; exact h.view⟩

/-- **A commit makes all the commands of the transaction lasting**, or goes on with it. -/
theorem commit (h : C.Within s c base ws) (hC : C.Atomic) {r : Except Fault Answer}
    (hr : E.perform s c .commit = (r, s')) :
    match r with
    | .ok _ => C.Replays base ws (C.tables s')
    | .error _ => C.Within s' c base ws := by
  cases r with
  | ok answer => exact hC.commit _ _ _ _ h.inside hr ▸ h.view
  | error f =>
    obtain ⟨hin, hview⟩ := hC.commit_failed _ _ _ _ h.inside hr
    have htables := hC.isolated s c .commit h.inside (by rwa [hr])
    rw [hr] at htables
    exact ⟨hin, htables.trans h.tables, hview ▸ h.view⟩

end Within

end Engine.Contents

end ScriptHost.Database
