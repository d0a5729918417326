import ScriptHost.Queue
import ScriptHost.Proofs.Monitor.Run

/-!
# The order of a queue

Whatever callers do to a queue at the same time, it stays a queue: what has been handed out,
followed by what is still there, is what has been stored, in the order in which it was stored.
Nothing is lost, nothing comes twice, nothing overtakes, and a call that fails leaves no trace.

`Serves` says what each call may find and do, in one rule for each way in which it can end.  Every
step of a run that changes the queue is an instance of one of them (`serves_of_step`), and each of
them keeps the order (`Serves.conserves`); `order_of_run` puts the two together by the induction of
`Monitor.Run.invariant`.
-/

set_option autoImplicit false

namespace ScriptHost.Queue

open Monitor

variable {α : Type}

/-- An empty queue that nobody uses yet. -/
def machine (capacity : Nat) (clock : Clock) : Machine (protocol α) :=
  { state := { capacity }, clock }

/-! ## What one call does -/

/-- The rules of a queue: a call on the first queue may end with this reply and leave the second. -/
inductive Serves : Queue α → Call α → Reply α → Queue α → Prop
  | stored {q : Queue α} {item : α} (room : q.items.length < q.capacity) :
      Serves q (.put item) (.stored (.ok ())) { q with items := q.items ++ [item] }
  | refused {q : Queue α} {item : α} {f : Failure} (why : f.kind = .timeout ∨ f.kind = .exhausted) :
      Serves q (.put item) (.stored (.error f)) q
  | polled {q : Queue α} {item : α} {rest : List α} (front : q.items = item :: rest) :
      Serves q .poll (.polled (some item)) { q with items := rest }
  | missed {q : Queue α} (empty : q.items = []) : Serves q .poll (.polled none) q
  | drained {q : Queue α} {max : Nat} :
      Serves q (.drain max) (.drained (q.items.take max)) { q with items := q.items.drop max }

theorem serves_of_done {c : Call α} {q q' : Queue α} {r : Reply α} {signal : Signal Cond}
    (h : attempt c q = .done q' r signal) : Serves q c r q' := by
  cases c with
  | put item =>
    simp only [attempt] at h
    split at h
    · cases h
      exact .refused (.inr rfl)
    · split at h
      · cases h
      · rename_i hfull
        cases h
        exact .stored (Nat.lt_of_not_le hfull)
  | poll =>
    simp only [attempt] at h
    split at h
    · cases h
    · rename_i item rest hq
      cases h
      exact .polled hq
  | drain max =>
    simp only [attempt] at h
    split at h
    · rename_i hmax
      cases h
      subst hmax
      exact .drained
    · split at h
      · cases h
      · cases h
        exact .drained

/-- A call that runs out of time leaves the queue alone; one that takes has found it empty. -/
theorem serves_of_blocked {c : Call α} {q : Queue α} {on : Cond}
    (h : attempt c q = .blocked on) : Serves q c (giveUp c) q := by
  cases c with
  | put item => exact .refused (.inl rfl)
  | poll =>
    simp only [attempt] at h
    split at h
    · rename_i hq
      exact .missed hq
    · cases h
  | drain max =>
    simp only [attempt] at h
    split at h
    · cases h
    · split at h
      · rename_i hq
        obtain ⟨capacity, items⟩ := q
        obtain rfl : items = [] := List.isEmpty_iff.1 hq
        have hd : Serves (⟨capacity, []⟩ : Queue α) (.drain max) (.drained (List.take max []))
          ⟨capacity, List.drop max []⟩ := .drained
        rwa [List.take_nil, List.drop_nil] at hd
      · cases h

/-- Every step is an instance of a rule, or leaves the queue as it is. -/
theorem serves_of_step {m m' : Machine (protocol α)} {label : Machine.Label (protocol α)}
    (h : m.step label = some m') :
    (m.event? label = none ∧ m'.state = m.state) ∨
      ∃ e, m.event? label = some e ∧ Serves m.state e.call e.reply m'.state := by
  obtain hnone | ⟨e, he, ⟨signal, ha⟩ | ⟨⟨on, ha⟩, hr, hs⟩⟩ := Machine.step_state h
  · exact .inl hnone
  · exact .inr ⟨e, he, serves_of_done ha⟩
  · exact .inr ⟨e, he, by rw [hr, hs]; exact serves_of_blocked ha⟩

/-! ## What a history stores and hands out -/

/-- The item that a call has stored: that of a put that succeeds. -/
def storedBy : Call α → Reply α → List α
  | .put item, .stored (.ok ()) => [item]
  | _, _ => []

/-- The items that a call is given. -/
def handedBy : Reply α → List α
  | .stored _ => []
  | .polled item => item.toList
  | .drained items => items

/-- The items of the puts that succeeded, in the order in which they were stored. -/
def stored (events : List (Event (protocol α))) : List α :=
  events.flatMap fun e => storedBy e.call e.reply

/-- The items handed out by polls and drains, in the order in which they were taken. -/
def handedOut (events : List (Event (protocol α))) : List α :=
  events.flatMap fun e => handedBy e.reply

theorem stored_concat (events : List (Event (protocol α))) (e : Event (protocol α)) :
    stored (events ++ [e]) = stored events ++ storedBy e.call e.reply := by
  rw [stored, List.flatMap_append, List.flatMap_singleton, stored]

theorem handedOut_concat (events : List (Event (protocol α))) (e : Event (protocol α)) :
    handedOut (events ++ [e]) = handedOut events ++ handedBy e.reply := by
  rw [handedOut, List.flatMap_append, List.flatMap_singleton, handedOut]

/-- **One call loses nothing and overtakes nothing.** -/
theorem Serves.conserves {q q' : Queue α} {c : Call α} {r : Reply α} (h : Serves q c r q') :
    handedBy r ++ q'.items = q.items ++ storedBy c r := by
  cases h with
  | stored room => rfl
  | refused why => exact (List.append_nil _).symm
  | polled front => rw [front]; exact (List.append_nil _).symm
  | missed empty => exact (List.append_nil _).symm
  | drained => exact (List.take_append_drop ..).trans (List.append_nil _).symm

/-- No call leaves more items than the queue holds, nor changes how many that is. -/
theorem Serves.bounded {q q' : Queue α} {c : Call α} {r : Reply α} (h : Serves q c r q')
    (hq : q.items.length ≤ q.capacity) :
    q'.items.length ≤ q'.capacity ∧ q'.capacity = q.capacity := by
  cases h with
  | stored room =>
    refine ⟨?_, rfl⟩
    rw [List.length_append, List.length_singleton]
    exact room
  | refused why => exact ⟨hq, rfl⟩
  | polled front =>
    rw [front, List.length_cons] at hq
    exact ⟨Nat.le_of_succ_le hq, rfl⟩
  | missed empty => exact ⟨hq, rfl⟩
  | drained =>
    refine ⟨?_, rfl⟩
    rw [List.length_drop]
    exact Nat.le_trans (Nat.sub_le ..) hq

/-- A drain takes as many items as it asks for, if there are so many. -/
theorem Serves.length_drained {q q' : Queue α} {max : Nat} {items : List α}
    (h : Serves q (.drain max) (.drained items) q') : items.length = min max q.items.length := by
  cases h
  exact List.length_take

/-- A put that fails leaves the queue as it is. -/
theorem Serves.eq_of_refused {q q' : Queue α} {item : α} {f : Failure}
    (h : Serves q (.put item) (.stored (.error f)) q') : q' = q := by
  cases h
  rfl

/-! ## What a run does -/

/-- What holds of a queue of a given capacity after a history. -/
structure Ordered (capacity : Nat) (events : List (Event (protocol α))) (q : Queue α) : Prop where
  order : handedOut events ++ q.items = stored events
  bound : q.items.length ≤ capacity
  fixed : q.capacity = capacity

theorem Ordered.serve {capacity : Nat} {events : List (Event (protocol α))} {q q' : Queue α}
    {e : Event (protocol α)} (h : Ordered capacity events q) (hs : Serves q e.call e.reply q') :
    Ordered capacity (events ++ [e]) q' := by
  obtain ⟨hbound, hfixed⟩ := hs.bounded (h.fixed ▸ h.bound)
  refine ⟨?_, ?_, hfixed.trans h.fixed⟩
  · rw [handedOut_concat, stored_concat, List.append_assoc, hs.conserves, ← List.append_assoc,
      h.order]
  · rwa [hfixed, h.fixed] at hbound

theorem ordered_of_run {capacity : Nat} {clock : Clock} {events : List (Event (protocol α))}
    {m : Machine (protocol α)} (run : Run (machine capacity clock) events m) :
    Ordered capacity events m.state :=
  run.invariant (Ordered capacity) ⟨rfl, Nat.zero_le _, rfl⟩
    (fun _ _ _ _ _ h ha => h.serve (serves_of_done ha))
    (fun _ _ _ _ h ha hr => h.serve (hr ▸ serves_of_blocked ha))

/-- **A queue under any interleaving is a queue.**  After every run, what was handed out followed by
what is there is what was stored, and the queue is not overfull; the history it is said of is what
the callers have been told.  Every further step that changes the queue is one call served by the
rules: a put that fails changes nothing, and a drain takes as many items as there are, up to the
number it asks for. -/
theorem order_of_run {capacity : Nat} {clock : Clock} {events : List (Event (protocol α))}
    {m : Machine (protocol α)} (run : Run (machine capacity clock) events m) :
    handedOut events ++ m.state.items = stored events ∧
      m.state.items.length ≤ capacity ∧
      Ledger events m ∧
      ∀ label m', m.step label = some m' →
        (m.event? label = none ∧ m'.state = m.state) ∨
        ∃ e, m.event? label = some e ∧ Serves m.state e.call e.reply m'.state ∧
          (∀ item f, e.call = .put item → e.reply = .stored (.error f) → m'.state = m.state) ∧
          ∀ max items, e.call = .drain max → e.reply = .drained items →
            items.length = min max m.state.items.length := by
  have h := ordered_of_run run
  refine ⟨h.order, h.bound, run.ledger rfl, fun label m' hstep => ?_⟩
  obtain hnone | ⟨e, he, hs⟩ := serves_of_step hstep
  · exact .inl hnone
  · refine .inr ⟨e, he, hs, fun item f hc hr => ?_, fun max items hc hr => ?_⟩
    · rw [hc, hr] at hs
      exact hs.eq_of_refused
    · rw [hc, hr] at hs
      exact hs.length_drained

/-- One item fits in; the second put waits until the first item has been polled. -/
theorem order_of_run_full :
    ∃ (events : List (Event (protocol Nat))) (m : Machine (protocol Nat)),
      Run (machine 1 {}) events m ∧ stored events = [7, 8] ∧ handedOut events = [7] ∧
        m.state.items = [8] ∧ handedOut events ++ m.state.items = stored events := by
  have run : Run (P := protocol Nat) (machine 1 {}) _ _ :=
    .step (.enter 1) (.step (.signal 2 (some 1)) (.step (.enter 2) (.step (.arrive Call.poll .never)
      (.step (.enter 1) (.step (.signal 0 none) (.step (.enter 0)
        (.step (.arrive (Call.put 8) .never) (.step (.arrive (Call.put 7) .never) .start
          rfl) rfl) rfl) rfl) rfl) rfl) rfl) rfl) rfl
  exact ⟨_, _, run, rfl, rfl, rfl, (order_of_run run).1⟩

end ScriptHost.Queue
