import ScriptHost.Proofs.LockTable.Exclusion
import ScriptHost.Proofs.Monitor.Demand

/-!
# Who waits for a lock

All who wait for any lock of a table wait for one condition, and whoever gives locks back wakes them
all, be it one lock or all locks of a holder; one who had nothing to give back wakes nobody.  A
caller that is woken for a lock of another name waits again.  Still nobody is forgotten: when nobody
is about to do anything any more, every caller that waits wants a lock that somebody holds
(`held_of_quiet`).

Each name is a demand of its own in the sense of `Monitor.Demand`, of one piece if its lock is free.
-/

set_option autoImplicit false

namespace ScriptHost.LockTable

open Monitor

/-- The call wants the lock of a name. -/
def Call.wants (name : String) : Call → Bool
  | .lock n _ => n = name
  | .unlock _ _ | .releaseAll _ => false

/-- What those wait for who want the lock of a name. -/
def demand (name : String) : Demand protocol :=
  ⟨(), Call.wants name, fun t => (t.holder? name).isNone.toNat⟩

/-- Only those are held up who want a lock that is held. -/
theorem eq_lock_of_blocked {c : Call} {t : LockTable} {on : Unit} (h : attempt c t = .blocked on) :
    ∃ name holder owner, c = .lock name holder ∧ t.holder? name = some owner := by
  cases c with
  | lock name holder =>
    simp only [attempt] at h
    split at h
    · rename_i owner held
      exact ⟨name, holder, owner, rfl, held⟩
    · cases h
  | unlock name holder =>
    simp only [attempt] at h
    split at h
    · split at h <;> cases h
    · cases h
  | releaseAll holder => cases h

/-- A holder of no lock has nothing to give back. -/
theorem filter_held_of_namesOf {t : LockTable} {h : Holder} (hnone : t.namesOf h = []) :
    t.held.filter (·.2 ≠ h) = t.held := by
  refine List.filter_eq_self.2 fun p hp => decide_eq_true fun hholder => ?_
  have hmem : p.1 ∈ t.namesOf h := by
    rw [namesOf, Record.mem_names_ofList]
    exact List.mem_map_of_mem (List.mem_filter.2 ⟨hp, decide_eq_true hholder⟩)
  rw [hnone] at hmem
  cases hmem

/-- Whoever frees a lock wakes all; whoever takes one leaves the others as they are. -/
theorem done_cases {c : Call} {t t' : LockTable} {r : Reply} {signal : Signal Unit}
    (h : attempt c t = .done t' r signal) :
    signal = .all () ∨
      signal = .nobody ∧ ((∀ name, c.wants name = false) ∧ t' = t ∨
        ∃ name holder, c = .lock name holder ∧ t.holder? name = none ∧
          t' = ⟨t.held ++ [(name, holder)]⟩) := by
  cases c with
  | lock name holder =>
    simp only [attempt] at h
    split at h <;> cases h
    rename_i free
    exact .inr ⟨rfl, .inr ⟨name, holder, rfl, free, rfl⟩⟩
  | unlock name holder =>
    simp only [attempt] at h
    split at h
    · split at h <;> cases h
      · exact .inl rfl
      · exact .inr ⟨rfl, .inl ⟨fun _ => rfl, rfl⟩⟩
    · cases h
      exact .inr ⟨rfl, .inl ⟨fun _ => rfl, rfl⟩⟩
  | releaseAll holder =>
    simp only [attempt] at h
    cases hnames : t.namesOf holder with
    | nil =>
      rw [hnames] at h
      cases h
      exact .inr ⟨rfl, .inl ⟨fun _ => rfl, congrArg LockTable.mk (filter_held_of_namesOf hnames)⟩⟩
    | cons =>
      rw [hnames] at h
      cases h
      exact .inl rfl

theorem demand_announced (name : String) : (demand name).Announced where
  blocked c t on hw h := by
    obtain ⟨n, holder, owner, rfl, held⟩ := eq_lock_of_blocked h
    obtain rfl : n = name := of_decide_eq_true hw
    refine ⟨rfl, ?_⟩
    show (t.holder? n).isNone.toNat = 0
    rw [held]
    rfl
  done c t t' r signal h := by
    obtain rfl | ⟨rfl, ⟨hw, rfl⟩ | ⟨n, holder, rfl, free, rfl⟩⟩ := done_cases h
    · exact .inl rfl
    · refine .inr (.inr ?_)
      show (LockTable.holder? _ name).isNone.toNat + (c.wants name).toNat ≤ _
      rw [hw]
      exact Nat.le_refl _
    · by_cases hn : n = name
      · subst hn
        refine .inr (.inl ?_)
        show (LockTable.holder? _ n).isNone.toNat = 0
        rw [holder?_append_self free]
        rfl
      · refine .inr (.inr ?_)
        show (LockTable.holder? _ name).isNone.toNat + (decide (n = name)).toNat ≤ _
        rw [holder?_append_of_ne t (Ne.symm hn), decide_eq_false hn]
        exact Nat.le_refl _
  one := .inr fun c t t' r signal h => by
    obtain rfl | ⟨rfl, -⟩ := done_cases h <;> rfl

/-- **Nobody waits for a lock in vain.**  In every state in which nobody is about to enter and no
signal is outstanding, every caller that waits wants a lock that somebody holds. -/
theorem held_of_quiet {clock : Clock} {events : List (Event protocol)} {m : Machine protocol}
    (run : Run (machine clock) events m) (quiet : m.Quiet) :
    ∀ c ∈ m.callers, ∀ on, c.phase = .waiting on →
      ∃ name holder owner, c.call = .lock name holder ∧ m.state.holder? name = some owner := by
  intro c hc on hp
  obtain ⟨t, ha⟩ := (run.grounded rfl).blocked hc hp
  obtain ⟨name, holder, -, hcall, -⟩ := eq_lock_of_blocked ha
  have hzero : (m.state.holder? name).isNone.toNat = 0 :=
    ((demand_announced name).kept_of_run run rfl).supply_eq_zero quiet hc
      (by rw [hcall]; exact decide_eq_true rfl) hp
  cases howner : m.state.holder? name with
  | none =>
    rw [howner] at hzero
    cases hzero
  | some owner => exact ⟨name, holder, owner, hcall, howner⟩

/-- Two callers wait for locks of one holder, which gives back both of them at once; one of the two
is woken too late, after a third caller has taken its lock. -/
theorem held_of_quiet_overtaken :
    ∃ (events : List (Event protocol)) (m : Machine protocol) (c : Caller protocol),
      Run (machine {}) events m ∧ m.Quiet ∧ c ∈ m.callers ∧ c.call = .lock "x" ⟨2⟩ ∧
        c.phase = .waiting () ∧ m.state.holder? "y" = some ⟨3⟩ ∧
        ∃ owner, m.state.holder? "x" = some owner := by
  have run : Run (P := protocol) (machine {}) _ _ :=
    .step (.enter 3) (.step (.enter 2) (.step (.signal 4 none) (.step (.enter 5)
      (.step (.arrive (Call.lock "x" ⟨4⟩) .never) (.step (.enter 4)
        (.step (.arrive (Call.releaseAll ⟨1⟩) .never) (.step (.enter 3)
          (.step (.arrive (Call.lock "y" ⟨3⟩) .never) (.step (.enter 2)
            (.step (.arrive (Call.lock "x" ⟨2⟩) .never) (.step (.enter 1)
              (.step (.arrive (Call.lock "y" ⟨1⟩) .never) (.step (.enter 0)
                (.step (.arrive (Call.lock "x" ⟨1⟩) .never) .start
                  rfl) rfl) rfl) rfl) rfl) rfl) rfl) rfl) rfl) rfl) rfl) rfl) rfl) rfl) rfl
  obtain ⟨name, holder, owner, hcall, howner⟩ :=
    held_of_quiet run (by decide) _ (.tail _ (.tail _ (.head _))) () rfl
  cases hcall
  exact ⟨_, _, _, run, by decide, .tail _ (.tail _ (.head _)), rfl, rfl, rfl, owner, howner⟩

end ScriptHost.LockTable
