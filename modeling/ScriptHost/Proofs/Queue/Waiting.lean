import ScriptHost.Proofs.Monitor.Demand
import ScriptHost.Proofs.Queue.Order

/-!
# Who waits for a queue

A put wakes one caller who waits for an item and a poll one who waits for room, each after it has
left the queue; a drain wakes all who wait for room.  Others may come first, a caller that is woken
may take many items or none, and some leave because their time is up.  Still nobody is forgotten:
when nobody is about to do anything any more, those who wait for an item wait for an empty queue,
and those who wait for room for a full one (`waits_of_quiet`).

Items and room are two demands in the sense of `Monitor.Demand`, and that is all there is to show.
-/

set_option autoImplicit false

namespace ScriptHost.Queue

open Monitor

variable {α : Type}

/-- The call takes an item, if there is one. -/
def Call.takes : Call α → Bool
  | .poll => true
  | .drain max => max ≠ 0
  | .put _ => false

/-- Whether the call puts something into the queue. -/
def Call.stores : Call α → Bool
  | .put _ => true
  | .poll | .drain _ => false

/-- What polls and drains wait for. -/
def itemDemand : Demand (protocol α) := ⟨.notEmpty, Call.takes, fun q => q.items.length⟩

/-- What puts wait for. -/
def roomDemand : Demand (protocol α) :=
  ⟨.notFull, Call.stores, fun q => q.capacity - q.items.length⟩

/-- A call is held up because it needs an item and there is none, or room and there is none. -/
theorem blocked_cases {c : Call α} {q : Queue α} {on : Cond} (h : attempt c q = .blocked on) :
    (on = .notEmpty ∧ c.takes = true ∧ c.stores = false ∧ q.items.length = 0) ∨
      (on = .notFull ∧ c.stores = true ∧ c.takes = false ∧ q.capacity ≤ q.items.length) := by
  cases c with
  | put item =>
    simp only [attempt] at h
    split at h
    · cases h
    · split at h <;> cases h
      exact .inr ⟨rfl, rfl, rfl, by assumption⟩
  | poll =>
    simp only [attempt] at h
    split at h <;> cases h
    rename_i hempty
    exact .inl ⟨rfl, rfl, rfl, by rw [hempty, List.length_nil]⟩
  | drain max =>
    simp only [attempt] at h
    split at h
    · cases h
    · rename_i hmax
      split at h <;> cases h
      rename_i hempty
      exact .inl ⟨rfl, decide_eq_true hmax, rfl, by rw [List.isEmpty_iff.1 hempty, List.length_nil]⟩

/-- A call that does its work leaves the queue alone, stores one item and tells one who waits for an
item, takes one and tells one who waits for room, or takes some and tells all of these. -/
theorem done_cases {c : Call α} {q q' : Queue α} {r : Reply α} {signal : Signal Cond}
    (h : attempt c q = .done q' r signal) :
    (q' = q ∧ signal = .nobody ∧ c.takes = false ∧ (c.stores = true → q.capacity = 0)) ∨
      (c.stores = true ∧ c.takes = false ∧ signal = .one .notEmpty ∧ q'.capacity = q.capacity ∧
        q'.items.length = q.items.length + 1) ∨
      (c.takes = true ∧ c.stores = false ∧ q'.capacity = q.capacity ∧
        (signal = .one .notFull ∧ q'.items.length + 1 = q.items.length ∨
          signal = .all .notFull ∧ q'.items.length + 1 ≤ q.items.length)) := by
  cases c with
  | put item =>
    simp only [attempt] at h
    split at h
    · rename_i hcapacity
      cases h
      exact .inl ⟨rfl, rfl, rfl, fun _ => hcapacity⟩
    · split at h <;> cases h
      exact .inr (.inl ⟨rfl, rfl, rfl, rfl, List.length_append⟩)
  | poll =>
    simp only [attempt] at h
    split at h <;> cases h
    rename_i hq
    exact .inr (.inr ⟨rfl, rfl, rfl, .inl ⟨rfl, by rw [hq, List.length_cons]⟩⟩)
  | drain max =>
    simp only [attempt] at h
    split at h
    · rename_i hmax
      cases h
      exact .inl ⟨rfl, rfl, decide_eq_false (not_not_intro hmax),
        fun hstores => absurd hstores Bool.false_ne_true⟩
    · rename_i hmax
      split at h <;> cases h
      rename_i hsome
      refine .inr (.inr ⟨decide_eq_true hmax, rfl, rfl, .inr ⟨rfl, ?_⟩⟩)
      have hpos := List.length_pos_iff.2 fun hnil => hsome (List.isEmpty_iff.2 hnil)
      rw [List.length_drop]
      omega

theorem itemDemand_announced : (itemDemand (α := α)).Announced where
  blocked c q on hw h := by
    obtain ⟨hon, -, -, hempty⟩ | ⟨-, -, htakes, -⟩ := blocked_cases h
    · exact ⟨hon, hempty⟩
    · exact absurd (hw.symm.trans htakes) (by decide)
  done c q q' r signal h := by
    show signal.isAll .notEmpty = true ∨ q'.items.length = 0 ∨
      q'.items.length + c.takes.toNat ≤ q.items.length + (signal.isOne .notEmpty).toNat
    refine .inr (.inr ?_)
    obtain ⟨rfl, rfl, htakes, -⟩ | ⟨-, htakes, rfl, -, hlen⟩ | ⟨htakes, -, -, hlen⟩ := done_cases h
    · simp [htakes]
    · simp [htakes, Signal.isOne, hlen]
    · simp [htakes]
      omega
  one := .inl fun c q h => by
    obtain ⟨-, htakes, -⟩ | ⟨hon, -⟩ := blocked_cases h
    · exact htakes
    · cases hon

theorem roomDemand_announced : (roomDemand (α := α)).Announced where
  blocked c q on hw h := by
    obtain ⟨-, -, hstores, -⟩ | ⟨hon, -, -, hfull⟩ := blocked_cases h
    · exact absurd (hw.symm.trans hstores) (by decide)
    · exact ⟨hon, Nat.sub_eq_zero_of_le hfull⟩
  done c q q' r signal h := by
    show signal.isAll .notFull = true ∨ q'.capacity - q'.items.length = 0 ∨
      q'.capacity - q'.items.length + c.stores.toNat ≤
        q.capacity - q.items.length + (signal.isOne .notFull).toNat
    obtain ⟨rfl, rfl, -, hstores⟩ | ⟨hstores, -, rfl, hcapacity, hlen⟩ |
      ⟨-, hstores, hcapacity, ⟨rfl, hlen⟩ | ⟨rfl, -⟩⟩ := done_cases h
    · cases hc : c.stores with
      | true => exact .inr (.inl (by rw [hstores hc, Nat.zero_sub]))
      | false => exact .inr (.inr (Nat.le_add_right ..))
    · simp [hstores, hcapacity, hlen]
      omega
    · refine .inr (.inr ?_)
      simp [hstores, Signal.isOne, hcapacity]
      omega
    · exact .inl rfl
  one := .inl fun c q h => by
    obtain ⟨hon, -⟩ | ⟨-, hstores, -⟩ := blocked_cases h
    · cases hon
    · exact hstores

/-- **Nobody waits for a queue in vain.**  In every state in which nobody is about to enter and no
signal is outstanding, the queue is empty if a poll or a drain still waits, and full if a put
does. -/
theorem waits_of_quiet {capacity : Nat} {clock : Clock} {events : List (Event (protocol α))}
    {m : Machine (protocol α)} (run : Run (machine capacity clock) events m) (quiet : m.Quiet) :
    ∀ c ∈ m.callers, ∀ on, c.phase = .waiting on →
      ((c.call = .poll ∨ ∃ max, c.call = .drain max) → m.state.items = []) ∧
      ((∃ item, c.call = .put item) → m.state.items.length = capacity) := by
  intro c hc on hp
  have hitems := itemDemand_announced.kept_of_run run rfl
  have hroom := roomDemand_announced.kept_of_run run rfl
  have hordered := ordered_of_run run
  obtain ⟨q, ha⟩ := (run.grounded rfl).blocked hc hp
  obtain ⟨-, htakes, hstores, -⟩ | ⟨-, hstores, htakes, -⟩ := blocked_cases ha
  · -- it is a poll or a drain
    refine ⟨fun _ => List.length_eq_zero_iff.1 (hitems.supply_eq_zero quiet hc htakes hp), ?_⟩
    rintro ⟨item, hput⟩
    rw [hput] at hstores
    cases hstores
  · -- it is a put
    refine ⟨?_, fun _ => ?_⟩
    · rintro (hpoll | ⟨max, hdrain⟩)
      · rw [hpoll] at hstores
        cases hstores
      · rw [hdrain] at hstores
        cases hstores
    · have hzero : m.state.capacity - m.state.items.length = 0 :=
        hroom.supply_eq_zero quiet hc hstores hp
      rw [hordered.fixed] at hzero
      exact Nat.le_antisymm hordered.bound (Nat.le_of_sub_eq_zero hzero)

/-- A poll waits for an item; a put stores one, a drain that has come later takes it, and the poll,
which is woken in vain, waits again. -/
theorem waits_of_quiet_overtaken :
    ∃ (events : List (Event (protocol Nat))) (m : Machine (protocol Nat))
      (c : Caller (protocol Nat)),
      Run (machine 1 {}) events m ∧ m.Quiet ∧ c ∈ m.callers ∧ c.call = .poll ∧
        c.phase = .waiting .notEmpty ∧ handedOut events = [7] ∧ m.state.items = [] := by
  have run : Run (P := protocol Nat) (machine 1 {}) _ _ :=
    .step (.signal 2 none) (.step (.enter 0) (.step (.signal 1 (some 0)) (.step (.enter 2)
      (.step (.arrive (Call.drain 5) .never) (.step (.enter 1) (.step (.arrive (Call.put 7) .never)
        (.step (.enter 0) (.step (.arrive Call.poll .never) .start
          rfl) rfl) rfl) rfl) rfl) rfl) rfl) rfl) rfl
  exact ⟨_, _, _, run, by decide, .head _, rfl, rfl, rfl,
    (waits_of_quiet run (by decide) _ (.head _) _ rfl).1 (.inl rfl)⟩

end ScriptHost.Queue
