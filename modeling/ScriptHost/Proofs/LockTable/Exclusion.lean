import ScriptHost.LockTable
import ScriptHost.Proofs.Keyed
import ScriptHost.Proofs.Monitor.Run

/-!
# Exclusion

Whatever callers do to a table of locks at the same time, each of its locks passes from hand to
hand: it is taken when it is free and given back by the holder who took it.  Locks are not
reentrant, so "free" leaves out the holder itself; and a call that fails, or is about other locks,
does not touch it.

* `Move`, `moves` — what a history says of one lock.
* `Turns` — takings and returns in turns, each return by the holder before it.
* `Obeys` — what one call may do to a table.  Every attempt that comes to an end obeys
  (`obeys_of_done`, `obeys_of_blocked`), and obeying keeps the turns (`Guarded.obey`).
* `exclusion_of_run` — the law for every run.
-/

set_option autoImplicit false

namespace ScriptHost.LockTable

open Monitor

/-- A table of which nobody holds a lock yet. -/
def machine (clock : Clock) : Machine protocol := { state := {}, clock }

/-! ## The holder of a lock -/

/-- A lock has one holder at most. -/
def Exclusive (t : LockTable) : Prop := Keyed.Distinct t.held

theorem holder?_append_self {t : LockTable} {name : String} (free : t.holder? name = none)
    (h : Holder) : (⟨t.held ++ [(name, h)]⟩ : LockTable).holder? name = some h := by
  rw [holder?] at free ⊢
  rw [List.lookup_append, free, Option.none_or, List.lookup_cons_self]

theorem holder?_append_of_ne (t : LockTable) {name n : String} (hn : n ≠ name) (h : Holder) :
    (⟨t.held ++ [(name, h)]⟩ : LockTable).holder? n = t.holder? n := by
  rw [holder?, List.lookup_append, List.lookup_cons, beq_eq_false_iff_ne.2 hn, holder?]
  exact Option.or_none

theorem exclusive_append {t : LockTable} (ht : t.Exclusive) {name : String}
    (free : t.holder? name = none) (h : Holder) :
    Exclusive ⟨t.held ++ [(name, h)]⟩ := by
  rw [Exclusive, Keyed.Distinct, List.map_append, List.map_singleton, List.nodup_append]
  refine ⟨ht, List.nodup_singleton _, fun a ha b hb hab => ?_⟩
  obtain rfl := List.mem_singleton.1 hb
  exact Keyed.lookup_eq_none.1 free (hab ▸ ha)

/-- The names that a holder gives back are those that it holds. -/
theorem mem_namesOf {t : LockTable} (ht : t.Exclusive) {n : String} {h : Holder} :
    n ∈ t.namesOf h ↔ t.holder? n = some h := by
  rw [namesOf, Record.mem_names_ofList, holder?, Keyed.lookup_eq_some ht]
  simp

/-! ## The history of one lock -/

/-- What becomes of a lock. -/
inductive Move where
  | taken (holder : Holder)
  | returned (holder : Holder)

/-- What a call does to the lock of a name, going by its reply. -/
def moveOf (name : String) : Call → Reply → Option Move
  | .lock n h, .result (.ok ()) => if n = name then some (.taken h) else none
  | .unlock n h, .result (.ok ()) => if n = name then some (.returned h) else none
  | .releaseAll h, .released names => if name ∈ names then some (.returned h) else none
  | _, _ => none

/-- The takings and returns of one lock among what callers have been answered. -/
def moves (name : String) (events : List (Event protocol)) : List Move :=
  events.filterMap fun e => moveOf name e.call e.reply

theorem moves_concat (name : String) (events : List (Event protocol)) (e : Event protocol) :
    moves name (events ++ [e]) = moves name events ++ (moveOf name e.call e.reply).toList := by
  rw [moves, List.filterMap_append, moves]
  cases h : moveOf name e.call e.reply <;> simp [h]

/-- A lock is taken and given back in turns, each time by the holder who took it; the last one has
it still, or nobody. -/
inductive Turns : List Move → Option Holder → Prop
  | start : Turns [] none
  | taken {moves : List Move} {h : Holder} : Turns moves none → Turns (moves ++ [.taken h]) (some h)
  | returned {moves : List Move} {h : Holder} : Turns moves (some h) →
      Turns (moves ++ [.returned h]) none

/-- A step in the course of a lock: from one holder or none to another. -/
inductive Course : Option Holder → Option Move → Option Holder → Prop
  | taken (h : Holder) : Course none (some (.taken h)) (some h)
  | returned (h : Holder) : Course (some h) (some (.returned h)) none
  | left (o : Option Holder) : Course o none o

theorem Turns.step {moves : List Move} {o o' : Option Holder} {move : Option Move}
    (turns : Turns moves o) (course : Course o move o') : Turns (moves ++ move.toList) o' := by
  cases course with
  | taken h => exact turns.taken
  | returned h => exact turns.returned
  | left => rwa [Option.toList_none, List.append_nil]

/-! ## What one call does -/

/-- The call is about the lock of a name: it says so, or it gives back all locks of its holder. -/
def Call.Concerns (t : LockTable) (name : String) : Call → Prop
  | .lock n _ => n = name
  | .unlock n _ => n = name
  | .releaseAll h => t.holder? name = some h

/-- What a call with this reply may make of the first table. -/
structure Obeys (t : LockTable) (c : Call) (r : Reply) (t' : LockTable) : Prop where
  exclusive : t'.Exclusive
  course : ∀ name, Course (t.holder? name) (moveOf name c r) (t'.holder? name)
  concerned : ∀ name, moveOf name c r ≠ none → c.Concerns t name
  refused : ∀ f, r = .result (.error f) → t' = t

/-- A call that leaves no trace. -/
theorem Obeys.of_untouched {t : LockTable} (ht : t.Exclusive) {c : Call} {r : Reply}
    (h : ∀ name, moveOf name c r = none) : Obeys t c r t where
  exclusive := ht
  course name := by
    rw [h]
    exact .left _
  concerned name hmove := absurd (h name) hmove
  refused _ _ := rfl

theorem obeys_of_lock {t : LockTable} (ht : t.Exclusive) {name : String}
    (free : t.holder? name = none) (h : Holder) :
    Obeys t (.lock name h) (.result (.ok ())) ⟨t.held ++ [(name, h)]⟩ where
  exclusive := exclusive_append ht free h
  course n := by
    rw [moveOf]
    by_cases hn : name = n
    · subst hn
      rw [if_pos rfl, free, holder?_append_self free]
      exact .taken h
    · rw [if_neg hn, holder?_append_of_ne t (Ne.symm hn)]
      exact .left _
  concerned n hmove := by
    by_contra hn
    exact hmove (if_neg hn)
  refused _ hr := by cases hr

theorem obeys_of_unlock {t : LockTable} (ht : t.Exclusive) {name : String} {h : Holder}
    (held : t.holder? name = some h) :
    Obeys t (.unlock name h) (.result (.ok ())) (t.remove name) where
  exclusive := ht.filter _
  course n := by
    rw [moveOf]
    by_cases hn : name = n
    · subst hn
      have hnone : (t.remove name).holder? name = none :=
        Keyed.lookup_filter_eq_none ht fun _ _ => decide_eq_false (not_not_intro rfl)
      rw [if_pos rfl, held, hnone]
      exact .returned h
    · have hkeep : (t.remove name).holder? n = t.holder? n :=
        Keyed.lookup_filter_eq_self ht fun _ _ => decide_eq_true (Ne.symm hn)
      rw [if_neg hn, hkeep]
      exact .left _
  concerned n hmove := by
    by_contra hn
    exact hmove (if_neg hn)
  refused _ hr := by cases hr

theorem obeys_of_releaseAll {t : LockTable} (ht : t.Exclusive) (h : Holder) :
    Obeys t (.releaseAll h) (.released (t.namesOf h)) ⟨t.held.filter (·.2 ≠ h)⟩ where
  exclusive := ht.filter _
  course n := by
    rw [moveOf]
    by_cases hn : t.holder? n = some h
    · have hnone : (⟨t.held.filter (·.2 ≠ h)⟩ : LockTable).holder? n = none := by
        refine Keyed.lookup_filter_eq_none ht fun h' ho => decide_eq_false (not_not_intro ?_)
        exact Option.some_inj.1 (ho.symm.trans hn)
      rw [if_pos ((mem_namesOf ht).2 hn), hn, hnone]
      exact .returned h
    · have hkeep : (⟨t.held.filter (·.2 ≠ h)⟩ : LockTable).holder? n = t.holder? n :=
        Keyed.lookup_filter_eq_self ht fun h' ho => decide_eq_true fun he => hn (he ▸ ho)
      rw [if_neg fun hm => hn ((mem_namesOf ht).1 hm), hkeep]
      exact .left _
  concerned n hmove := by
    by_contra hn
    exact hmove (if_neg fun hm => hn ((mem_namesOf ht).1 hm))
  refused _ hr := by cases hr

theorem obeys_of_done {t t' : LockTable} (ht : t.Exclusive) {c : Call} {r : Reply}
    {signal : Signal Unit} (h : attempt c t = .done t' r signal) : Obeys t c r t' := by
  cases c with
  | lock name holder =>
    simp only [attempt] at h
    split at h
    · cases h
    · rename_i free
      cases h
      exact obeys_of_lock ht free holder
  | unlock name holder =>
    simp only [attempt] at h
    split at h
    · rename_i owner held
      split at h
      · rename_i hown
        cases h
        exact obeys_of_unlock ht (hown ▸ held)
      · cases h
        exact .of_untouched ht fun _ => rfl
    · cases h
      exact .of_untouched ht fun _ => rfl
  | releaseAll holder =>
    cases h
    exact obeys_of_releaseAll ht holder

/-- A call that gives up leaves the table alone; only those who want a lock have to wait. -/
theorem obeys_of_blocked {t : LockTable} (ht : t.Exclusive) {c : Call}
    (h : attempt c t = .blocked ()) : Obeys t c (giveUp c) t := by
  cases c with
  | lock name holder => exact .of_untouched ht fun _ => rfl
  | unlock name holder =>
    simp only [attempt] at h
    split at h
    · split at h <;> cases h
    · cases h
  | releaseAll holder => cases h

/-! ## What a run does -/

/-- What holds of a table after a history. -/
structure Guarded (events : List (Event protocol)) (t : LockTable) : Prop where
  exclusive : t.Exclusive
  turns : ∀ name, Turns (moves name events) (t.holder? name)

theorem Guarded.obey {events : List (Event protocol)} {t t' : LockTable} {e : Event protocol}
    (h : Guarded events t) (ho : Obeys t e.call e.reply t') : Guarded (events ++ [e]) t' where
  exclusive := ho.exclusive
  turns name := by
    rw [moves_concat]
    exact (h.turns name).step (ho.course name)

theorem guarded_of_run {clock : Clock} {events : List (Event protocol)} {m : Machine protocol}
    (run : Run (machine clock) events m) : Guarded events m.state :=
  run.invariant Guarded ⟨List.nodup_nil, fun _ => .start⟩
    (fun _ _ _ _ _ h ha => h.obey (obeys_of_done h.exclusive ha))
    (fun _ _ _ _ h ha hr => h.obey (hr ▸ obeys_of_blocked h.exclusive ha))

/-- Every step obeys, or leaves the table as it is. -/
theorem obeys_of_step {m m' : Machine protocol} {label : Machine.Label protocol}
    (hm : m.state.Exclusive) (h : m.step label = some m') :
    (m.event? label = none ∧ m'.state = m.state) ∨
      ∃ e, m.event? label = some e ∧ Obeys m.state e.call e.reply m'.state := by
  obtain hnone | ⟨e, he, ⟨signal, ha⟩ | ⟨⟨on, ha⟩, hr, hs⟩⟩ := Machine.step_state h
  · exact .inl hnone
  · exact .inr ⟨e, he, obeys_of_done hm ha⟩
  · exact .inr ⟨e, he, by rw [hr, hs]; exact obeys_of_blocked hm ha⟩

/-- **A lock passes from hand to hand.**  After every run, what the history says of a name are
takings and returns in turns, each return by the very holder who took the lock before, and whoever
took it last without returning it is its holder; the history it is said of is what the callers have
been told.  A further step takes a lock only if it is free, and a call that fails changes nothing,
nor does any call touch a lock that it is not about. -/
theorem exclusion_of_run {clock : Clock} {events : List (Event protocol)} {m : Machine protocol}
    (run : Run (machine clock) events m) :
    (∀ name, Turns (moves name events) (m.state.holder? name)) ∧
      Ledger events m ∧
      ∀ label m', m.step label = some m' →
        (m.event? label = none ∧ m'.state = m.state) ∨
        ∃ e, m.event? label = some e ∧
          (∀ name holder, e.call = .lock name holder → e.reply = .result (.ok ()) →
            m.state.holder? name = none ∧ m'.state.holder? name = some holder) ∧
          (∀ f, e.reply = .result (.error f) → m'.state = m.state) ∧
          ∀ name, ¬ e.call.Concerns m.state name →
            m'.state.holder? name = m.state.holder? name := by
  have h := guarded_of_run run
  refine ⟨h.turns, run.ledger rfl, fun label m' hstep => ?_⟩
  obtain hnone | ⟨e, he, ho⟩ := obeys_of_step h.exclusive hstep
  · exact .inl hnone
  refine .inr ⟨e, he, fun name holder hc hr => ?_, ho.refused, fun name hnot => ?_⟩
  · have hcourse := ho.course name
    rw [hc, hr, moveOf, if_pos rfl] at hcourse
    generalize m.state.holder? name = o at hcourse ⊢
    generalize m'.state.holder? name = o' at hcourse ⊢
    cases hcourse
    exact ⟨rfl, rfl⟩
  · have hcourse := ho.course name
    have hmove : moveOf name e.call e.reply = none := by
      by_contra hmove
      exact hnot (ho.concerned name hmove)
    rw [hmove] at hcourse
    generalize m.state.holder? name = o at hcourse ⊢
    generalize m'.state.holder? name = o' at hcourse ⊢
    cases hcourse
    rfl

/-- The host takes the lock away from the first holder; the second, who has waited for it, gets it,
and the first can neither give it back nor take it again at once. -/
theorem exclusion_of_run_handover :
    ∃ (events : List (Event protocol)) (m : Machine protocol),
      Run (machine {}) events m ∧
        moves "x" events = [.taken ⟨1⟩, .returned ⟨1⟩, .taken ⟨2⟩] ∧
        m.state.holder? "x" = some ⟨2⟩ ∧ Turns (moves "x" events) (m.state.holder? "x") := by
  have run : Run (P := protocol) (machine {}) _ _ :=
    .step (.enter 4) (.step (.arrive (Call.lock "x" ⟨1⟩) (.atInstant 0))
      (.step (.enter 3) (.step (.arrive (Call.unlock "x" ⟨1⟩) .never)
        (.step (.enter 1) (.step (.signal 2 none) (.step (.enter 2)
          (.step (.arrive (Call.releaseAll ⟨1⟩) .never) (.step (.enter 1)
            (.step (.arrive (Call.lock "x" ⟨2⟩) .never) (.step (.enter 0)
              (.step (.arrive (Call.lock "x" ⟨1⟩) .never) .start
                rfl) rfl) rfl) rfl) rfl) rfl) rfl) rfl) rfl) rfl) rfl) rfl
  exact ⟨_, _, run, rfl, rfl, (exclusion_of_run run).1 "x"⟩

end ScriptHost.LockTable
