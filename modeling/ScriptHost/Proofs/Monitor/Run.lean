import ScriptHost.Monitor
import Mathlib.Data.List.Perm.Basic
import Mathlib.Data.List.Nodup

/-!
# Runs of a monitor

`Machine.step` is one step of a monitor, chosen from outside.  A *run* is any sequence of such
steps, so that what holds after every run holds for every number of callers and every interleaving
of what they do: blocking, being woken, waking for no reason, running out of time or being
cancelled.

A call touches the resource at one step only, the one at which its reply is settled: it either finds
what it needs in the guarded section or finds its deadline passed while it still has to wait.  That
step is an *event*.  The history of a run is the list of its events, in the order of the steps.

## What is here

* `Machine.step_enter`, `step_wake`, `step_signal` — what a step says about the caller that takes
  it; `Machine.Signalled` lists what its signal can do.
* `Machine.step_state` — what a step does to the resource: nothing, unless the step is an event, and
  then exactly what the attempt of that one caller does.
* `Run.invariant` — the induction over runs, reduced to two obligations on `attempt` alone.  This is
  the rule every law of a queue, a table of locks or a pool is proved by.
* `Run.ledger` — the history is, up to its order, what the callers have been told: every caller who
  has a reply has exactly one event, with that reply, and nobody else has one.
* `Ledger.effect_of_step` — a step is the attempt of one caller, who is told its reply, or it does
  nothing to the resource and tells nobody anything.
-/

set_option autoImplicit false

namespace ScriptHost.Monitor

/-- What has become of a call: the caller, what it asked for and what it is told. -/
structure Event (P : Protocol) where
  id : Nat
  call : P.Call
  reply : P.Reply

/-- The reply of a caller who has got one, be it that the signal has still to be sent. -/
def Phase.reply? {P : Protocol} : Phase P → Option P.Reply
  | .entering => none
  | .waiting _ => none
  | .signalling _ reply => some reply
  | .finished reply => some reply

/-- The event that gave a caller its reply. -/
def Caller.settled? {P : Protocol} (c : Caller P) : Option (Event P) :=
  c.phase.reply?.map fun reply => ⟨c.id, c.call, reply⟩

namespace Machine

variable {P : Protocol}

/-- How the attempt of a caller in the guarded section is settled, if it is. -/
def verdict? (m : Machine P) (c : Caller P) : Option P.Reply :=
  match P.attempt c.call m.state with
  | .blocked _ => if c.deadline.isExpired m.clock then some (P.giveUp c.call) else none
  | .done _ reply _ => some reply

/-- The event that a step is. -/
def event? (m : Machine P) : Label P → Option (Event P)
  | .enter id => do
    let c ← m.find? id
    match c.phase with
    | .entering => (m.verdict? c).map fun reply => ⟨c.id, c.call, reply⟩
    | _ => none
  | _ => none

end Machine

/-- The histories and machines that can be reached from a machine. -/
inductive Run {P : Protocol} [DecidableEq P.Cond] (start : Machine P) :
    List (Event P) → Machine P → Prop
  | start : Run start [] start
  | step {events : List (Event P)} {m m' : Machine P} (label : Machine.Label P) :
      Run start events m → m.step label = some m' →
      Run start (events ++ (m.event? label).toList) m'

namespace Machine

variable {P : Protocol}

/-! ## The resource -/

@[simp] theorem setPhase_state (m : Machine P) (id : Nat) (phase : Phase P) :
    (m.setPhase id phase).state = m.state := rfl

@[simp] theorem wakeAll_state [DecidableEq P.Cond] (m : Machine P) (on : P.Cond) :
    (m.wakeAll on).state = m.state := rfl

theorem id_of_find? {m : Machine P} {id : Nat} {c : Caller P} (h : m.find? id = some c) :
    c.id = id := by
  simpa using List.find?_some h

theorem mem_of_find? {m : Machine P} {id : Nat} {c : Caller P} (h : m.find? id = some c) :
    c ∈ m.callers :=
  List.mem_of_find?_eq_some h

/-- The step at which a caller enters is the only one at which anything is settled. -/
theorem event?_enter {m : Machine P} {id : Nat} {c : Caller P} (hc : m.find? id = some c)
    (hp : c.phase = .entering) :
    m.event? (.enter id) = (m.verdict? c).map fun reply => ⟨c.id, c.call, reply⟩ := by
  simp only [event?, hc, Option.bind_eq_bind, Option.bind_some, hp]

/-- A caller enters only if it is there and about to. -/
theorem step_enter [DecidableEq P.Cond] {m m' : Machine P} {id : Nat}
    (h : m.step (.enter id) = some m') :
    ∃ c, m.find? id = some c ∧ c.phase = .entering ∧ m' = m.enter c := by
  simp only [step, Option.bind_eq_bind, Option.bind_eq_some_iff] at h
  obtain ⟨c, hc, h⟩ := h
  split at h
  · rename_i hp
    exact ⟨c, hc, hp, (Option.some_inj.1 h).symm⟩
  · cases h

theorem waitsOn_iff [DecidableEq P.Cond] {on : P.Cond} {c : Caller P} :
    waitsOn on c = true ↔ c.phase = .waiting on := by
  rw [waitsOn]
  split
  · rename_i hp
    rw [hp, decide_eq_true_iff, Phase.waiting.injEq]
  · rename_i hp
    exact ⟨fun h => (Bool.false_ne_true h).elim, fun h => absurd h (hp on)⟩

/-- A caller wakes by itself only if it waits. -/
theorem step_wake [DecidableEq P.Cond] {m m' : Machine P} {id : Nat}
    (h : m.step (.wake id) = some m') :
    ∃ c on, m.find? id = some c ∧ c.phase = .waiting on ∧ m' = m.setPhase c.id .entering := by
  simp only [step, Option.bind_eq_bind, Option.bind_eq_some_iff] at h
  obtain ⟨c, hc, h⟩ := h
  split at h
  · rename_i on hp
    exact ⟨c, on, hc, hp, by rw [id_of_find? hc, Option.some_inj.1 h]⟩
  · cases h

/-- What the signal of a caller does: it wakes all who wait for its condition, or one of them, if
there is one. -/
inductive Signalled [DecidableEq P.Cond] (m : Machine P) (c : Caller P) (reply : P.Reply) :
    Machine P → Prop
  | nobody (hp : c.phase = .signalling .nobody reply) :
      Signalled m c reply (m.setPhase c.id (.finished reply))
  | all {on : P.Cond} (hp : c.phase = .signalling (.all on) reply) :
      Signalled m c reply ((m.wakeAll on).setPhase c.id (.finished reply))
  | unheard {on : P.Cond} (hp : c.phase = .signalling (.one on) reply)
      (hnone : ∀ x ∈ m.callers, x.phase ≠ .waiting on) :
      Signalled m c reply (m.setPhase c.id (.finished reply))
  | one {on : P.Cond} {waiter : Caller P} (hp : c.phase = .signalling (.one on) reply)
      (hmem : waiter ∈ m.callers) (hwaits : waiter.phase = .waiting on) :
      Signalled m c reply ((m.setPhase c.id (.finished reply)).setPhase waiter.id .entering)

theorem step_signal [DecidableEq P.Cond] {m m' : Machine P} {id : Nat} {woken : Option Nat}
    (h : m.step (.signal id woken) = some m') :
    ∃ c reply, m.find? id = some c ∧ m.Signalled c reply m' := by
  simp only [step, Option.bind_eq_bind, Option.bind_eq_some_iff] at h
  obtain ⟨c, hc, h⟩ := h
  obtain rfl := id_of_find? hc
  split at h
  · rename_i reply hp
    exact ⟨c, reply, hc, Option.some_inj.1 h ▸ .nobody hp⟩
  · rename_i on reply hp
    exact ⟨c, reply, hc, Option.some_inj.1 h ▸ .all hp⟩
  · rename_i on reply hp
    refine ⟨c, reply, hc, ?_⟩
    split at h
    · split at h
      · cases h
      · rename_i hnone
        refine Option.some_inj.1 h ▸ .unheard hp fun x hx hwaits => hnone ?_
        exact List.any_eq_true.2 ⟨x, hx, waitsOn_iff.2 hwaits⟩
    · rename_i w
      obtain ⟨waiter, hw, h⟩ := Option.bind_eq_some_iff.1 h
      obtain rfl := id_of_find? hw
      split at h
      · rename_i hwaits
        exact Option.some_inj.1 h ▸ .one hp (mem_of_find? hw) (waitsOn_iff.1 hwaits)
      · cases h
  · cases h

theorem Signalled.state [DecidableEq P.Cond] {m m' : Machine P} {c : Caller P} {reply : P.Reply}
    (h : m.Signalled c reply m') : m'.state = m.state := by
  cases h <;> rfl

/-- A caller who enters changes the resource as its attempt says, and gets its reply with it. -/
theorem enter_state (m : Machine P) (c : Caller P) :
    (∃ s reply signal, P.attempt c.call m.state = .done s reply signal ∧
        m.verdict? c = some reply ∧ (m.enter c).state = s) ∨
      (∃ on, P.attempt c.call m.state = .blocked on ∧ (m.enter c).state = m.state ∧
        (m.verdict? c = none ∨ m.verdict? c = some (P.giveUp c.call))) := by
  cases ha : P.attempt c.call m.state with
  | blocked on =>
    refine .inr ⟨on, rfl, ?_, ?_⟩
    · simp only [enter, ha]
      split <;> rfl
    · simp only [verdict?, ha]
      split
      · exact .inr rfl
      · exact .inl rfl
  | done s reply signal =>
    refine .inl ⟨s, reply, signal, rfl, by simp only [verdict?, ha], ?_⟩
    cases signal <;> simp only [enter, ha, setPhase_state]

/-- **What a step does to the resource**: nothing, unless it is an event, and then what the attempt
of that caller does.  A call that gives up leaves the resource as it is. -/
theorem step_state [DecidableEq P.Cond] {m m' : Machine P} {label : Label P}
    (h : m.step label = some m') :
    (m.event? label = none ∧ m'.state = m.state) ∨
      ∃ c, m.event? label = some c ∧
        ((∃ signal, P.attempt c.call m.state = .done m'.state c.reply signal) ∨
          ((∃ on, P.attempt c.call m.state = .blocked on) ∧ c.reply = P.giveUp c.call ∧
            m'.state = m.state)) := by
  cases label with
  | arrive call deadline => exact .inl ⟨rfl, by rw [← Option.some_inj.1 h]⟩
  | wake id =>
    obtain ⟨c, on, -, -, rfl⟩ := step_wake h
    exact .inl ⟨rfl, rfl⟩
  | signal id woken =>
    obtain ⟨c, reply, -, hs⟩ := step_signal h
    exact .inl ⟨rfl, hs.state⟩
  | pass ms => exact .inl ⟨rfl, by rw [← Option.some_inj.1 h]⟩
  | cancel token => exact .inl ⟨rfl, by rw [← Option.some_inj.1 h]⟩
  | enter id =>
    obtain ⟨c, hc, hp, rfl⟩ := step_enter h
    rw [event?_enter hc hp]
    obtain ⟨s, reply, signal, ha, hv, hs⟩ | ⟨on, ha, hs, hv | hv⟩ := m.enter_state c
    · exact .inr ⟨⟨c.id, c.call, reply⟩, by rw [hv]; rfl, .inl ⟨signal, by rw [ha, hs]⟩⟩
    · exact .inl ⟨by rw [hv]; rfl, hs⟩
    · exact .inr ⟨⟨c.id, c.call, P.giveUp c.call⟩, by rw [hv]; rfl, .inr ⟨⟨on, ha⟩, rfl, hs⟩⟩

end Machine

/-- **Laws of a resource are proved on its attempts.**  What holds of an unused resource, survives
every attempt that does its work and every attempt that gives up, holds after every run. -/
theorem Run.invariant {P : Protocol} [DecidableEq P.Cond] {start m : Machine P}
    {events : List (Event P)} (run : Run start events m)
    (law : List (Event P) → P.State → Prop) (base : law [] start.state)
    (work : ∀ events s e s' signal, law events s → P.attempt e.call s = .done s' e.reply signal →
      law (events ++ [e]) s')
    (leave : ∀ events s e on, law events s → P.attempt e.call s = .blocked on →
      e.reply = P.giveUp e.call → law (events ++ [e]) s) :
    law events m.state := by
  induction run with
  | start => exact base
  | step label _ h ih =>
    obtain ⟨he, hs⟩ | ⟨e, he, ⟨signal, ha⟩ | ⟨⟨on, ha⟩, hr, hs⟩⟩ := Machine.step_state h
    · rw [he, hs, Option.toList_none, List.append_nil]
      exact ih
    · rw [he, Option.toList_some]
      exact work _ _ e _ signal ih ha
    · rw [he, hs, Option.toList_some]
      exact leave _ _ e on ih ha hr

/-! ## The callers

Callers go by numbers that are used once, and a step only ever changes phases.  So the events of a
run can be read off the callers, all but their order. -/

/-- A history agrees with what the callers of a machine have been told. -/
structure Ledger {P : Protocol} (events : List (Event P)) (m : Machine P) : Prop where
  nodup : (m.callers.map (·.id)).Nodup
  fresh : ∀ c ∈ m.callers, c.id < m.nextId
  settled : (m.callers.filterMap Caller.settled?).Perm events

namespace Ledger

variable {P : Protocol} {events : List (Event P)} {m : Machine P}

theorem eq_of_id_eq (l : Ledger events m) {c c' : Caller P} (hc : c ∈ m.callers)
    (hc' : c' ∈ m.callers) (h : c.id = c'.id) : c = c' :=
  List.inj_on_of_nodup_map l.nodup hc hc' h

/-- Setting the phase of a caller changes that caller only. -/
theorem setPhase_callers (l : Ledger events m) {c : Caller P} (hc : c ∈ m.callers)
    (phase : Phase P) :
    ∃ before behind, m.callers = before ++ c :: behind ∧
      (m.setPhase c.id phase).callers = before ++ { c with phase } :: behind := by
  obtain ⟨before, behind, hm⟩ := List.append_of_mem hc
  have hn := l.nodup
  rw [hm, List.map_append, List.map_cons, List.nodup_append, List.nodup_cons] at hn
  have keep : ∀ x ∈ before ++ behind, x.id ≠ c.id := by
    intro x hx hid
    rcases List.mem_append.1 hx with h | h
    · exact hn.2.2 x.id (List.mem_map_of_mem h) c.id (List.mem_cons_self ..) hid
    · exact hn.2.1.1 (hid ▸ List.mem_map_of_mem h)
  refine ⟨before, behind, hm, ?_⟩
  simp only [Machine.setPhase, hm, List.map_append, List.map_cons, if_true]
  congr 1
  · refine (List.map_congr_left fun x hx => ?_).trans (List.map_id _)
    rw [if_neg (keep x (List.mem_append_left _ hx)), id]
  · congr 1
    refine (List.map_congr_left fun x hx => ?_).trans (List.map_id _)
    rw [if_neg (keep x (List.mem_append_right _ hx)), id]

/-- A caller without a reply gets one, or goes on without. -/
theorem settle (l : Ledger events m) {c : Caller P} (hc : c ∈ m.callers)
    (hn : c.phase.reply? = none) (phase : Phase P) :
    Ledger (events ++ ({ c with phase } : Caller P).settled?.toList) (m.setPhase c.id phase) := by
  obtain ⟨before, behind, hm, hs⟩ := l.setPhase_callers hc phase
  refine ⟨?_, ?_, ?_⟩
  · have h := l.nodup
    rw [hm] at h
    rw [hs]
    simpa using h
  · intro x hx
    rw [hs] at hx
    rcases List.mem_append.1 hx with h | h
    · exact l.fresh x (hm ▸ List.mem_append_left _ h)
    · rcases List.mem_cons.1 h with rfl | h
      · exact l.fresh c hc
      · exact l.fresh x (hm ▸ List.mem_append_right _ (List.mem_cons_of_mem _ h))
  · have h := l.settled
    have hnone : c.settled? = none := by rw [Caller.settled?, hn, Option.map_none]
    rw [hm, List.filterMap_append, List.filterMap_cons_none hnone] at h
    rw [hs, List.filterMap_append]
    cases he : ({ c with phase } : Caller P).settled? with
    | none => rwa [List.filterMap_cons_none he, Option.toList_none, List.append_nil]
    | some e =>
      rw [List.filterMap_cons_some he, Option.toList_some]
      exact (List.perm_middle.trans (h.cons e)).trans (List.perm_append_singleton e events).symm

/-- Callers may change their phases as long as they keep their replies. -/
theorem of_map (l : Ledger events m) {m' : Machine P} {f : Caller P → Caller P}
    (hm : m'.callers = m.callers.map f) (hn : m'.nextId = m.nextId)
    (hid : ∀ c, (f c).id = c.id) (hs : ∀ c ∈ m.callers, (f c).settled? = c.settled?) :
    Ledger events m' := by
  refine ⟨?_, ?_, ?_⟩
  · rw [hm, List.map_map, show (fun c : Caller P => c.id) ∘ f = (·.id) from funext hid]
    exact l.nodup
  · intro x hx
    rw [hm] at hx
    obtain ⟨c, hc, rfl⟩ := List.mem_map.1 hx
    rw [hid, hn]
    exact l.fresh c hc
  · rw [hm, List.filterMap_map, show Caller.settled? ∘ f = fun x => (f x).settled? from rfl,
      List.filterMap_congr hs]
    exact l.settled

/-- A caller keeps its reply, or stays without. -/
theorem keep (l : Ledger events m) {c : Caller P} (hc : c ∈ m.callers) {phase : Phase P}
    (h : phase.reply? = c.phase.reply?) : Ledger events (m.setPhase c.id phase) := by
  refine l.of_map rfl rfl (fun x => by split <;> rfl) fun x hx => ?_
  split
  · rename_i hid
    rw [l.eq_of_id_eq hx hc hid, Caller.settled?, Caller.settled?, h]
  · rfl

theorem wakeAll [DecidableEq P.Cond] (l : Ledger events m) (on : P.Cond) :
    Ledger events (m.wakeAll on) := by
  refine l.of_map rfl rfl (fun x => by split <;> rfl) fun x _ => ?_
  split
  · rename_i hw
    rw [Caller.settled?, Caller.settled?, Machine.waitsOn_iff.1 hw]
    rfl
  · rfl

theorem arrive (l : Ledger events m) (call : P.Call) (deadline : Deadline) :
    Ledger events { m with
      callers := m.callers ++ [⟨m.nextId, call, deadline, .entering⟩]
      nextId := m.nextId + 1 } := by
  refine ⟨?_, ?_, ?_⟩
  · rw [List.map_append, List.map_singleton, List.nodup_append]
    refine ⟨l.nodup, List.nodup_singleton _, fun a ha b hb hab => ?_⟩
    obtain ⟨c, hc, rfl⟩ := List.mem_map.1 ha
    have hlt : c.id < m.nextId := l.fresh c hc
    have hb : b = m.nextId := List.mem_singleton.1 hb
    omega
  · intro x hx
    rcases List.mem_append.1 hx with h | h
    · exact Nat.lt_succ_of_lt (l.fresh x h)
    · rw [List.mem_singleton.1 h]
      exact Nat.lt_succ_self _
  · rw [List.filterMap_append, List.filterMap_cons_none rfl, List.filterMap_nil, List.append_nil]
    exact l.settled

/-! ### Every step keeps the ledger -/

theorem enter (l : Ledger events m) {c : Caller P} (hc : c ∈ m.callers)
    (hp : c.phase = .entering) :
    Ledger (events ++ ((m.verdict? c).map fun reply => ⟨c.id, c.call, reply⟩).toList)
      (m.enter c) := by
  have hn : c.phase.reply? = none := by rw [hp]; rfl
  cases ha : P.attempt c.call m.state with
  | blocked on =>
    simp only [Machine.enter, Machine.verdict?, ha]
    split
    · exact l.settle hc hn (.finished (P.giveUp c.call))
    · exact l.settle hc hn (.waiting on)
  | done s reply signal =>
    have l' : Ledger events { m with state := s } := ⟨l.nodup, l.fresh, l.settled⟩
    simp only [Machine.enter, Machine.verdict?, ha]
    cases signal with
    | nobody => exact l'.settle hc hn (.finished reply)
    | one on => exact l'.settle hc hn (.signalling (.one on) reply)
    | all on => exact l'.settle hc hn (.signalling (.all on) reply)

theorem wake [DecidableEq P.Cond] (l : Ledger events m) {id : Nat} {m' : Machine P}
    (h : m.step (.wake id) = some m') : Ledger events m' := by
  obtain ⟨c, on, hc, hp, rfl⟩ := Machine.step_wake h
  exact l.keep (Machine.mem_of_find? hc) (by rw [hp]; rfl)

/-- One who sends a signal is another caller than one who waits. -/
theorem still_waits (l : Ledger events m) {c waiter : Caller P} {signal : Signal P.Cond}
    {reply : P.Reply} {on : P.Cond} (hc : c ∈ m.callers) (hp : c.phase = .signalling signal reply)
    (hmem : waiter ∈ m.callers) (hwaits : waiter.phase = .waiting on) (phase : Phase P) :
    waiter ∈ (m.setPhase c.id phase).callers := by
  refine List.mem_map.2 ⟨waiter, hmem, if_neg fun hid => ?_⟩
  rw [l.eq_of_id_eq hmem hc hid, hp] at hwaits
  cases hwaits

/-- One who sends a signal is not woken by it. -/
theorem still_signals [DecidableEq P.Cond] {c : Caller P} {signal : Signal P.Cond}
    {reply : P.Reply} (hc : c ∈ m.callers) (hp : c.phase = .signalling signal reply)
    (on : P.Cond) : c ∈ (m.wakeAll on).callers :=
  List.mem_map.2 ⟨c, hc, if_neg (by rw [Machine.waitsOn_iff, hp]; exact nofun)⟩

/-- A caller that has sent its signal keeps its reply, and those it wakes have none. -/
theorem signal [DecidableEq P.Cond] (l : Ledger events m) {id : Nat} {woken : Option Nat}
    {m' : Machine P} (h : m.step (.signal id woken) = some m') : Ledger events m' := by
  obtain ⟨c, reply, hc, hs⟩ := Machine.step_signal h
  have hmem := Machine.mem_of_find? hc
  cases hs with
  | nobody hp => exact l.keep hmem (by rw [hp]; rfl)
  | all hp => exact (l.wakeAll _).keep (still_signals hmem hp _) (by rw [hp]; rfl)
  | unheard hp _ => exact l.keep hmem (by rw [hp]; rfl)
  | one hp hw hwaits =>
    exact (l.keep hmem (by rw [hp]; rfl)).keep (l.still_waits hmem hp hw hwaits _)
      (by rw [hwaits]; rfl)

theorem step [DecidableEq P.Cond] (l : Ledger events m) {label : Machine.Label P} {m' : Machine P}
    (h : m.step label = some m') : Ledger (events ++ (m.event? label).toList) m' := by
  -- all steps but an entry are no events
  have quiet (l' : Ledger events m') (he : m.event? label = none) :
      Ledger (events ++ (m.event? label).toList) m' := by
    rwa [he, Option.toList_none, List.append_nil]
  cases label with
  | enter id =>
    obtain ⟨c, hc, hp, rfl⟩ := Machine.step_enter h
    rw [Machine.event?_enter hc hp]
    exact l.enter (Machine.mem_of_find? hc) hp
  | arrive call deadline => exact quiet (Option.some_inj.1 h ▸ l.arrive call deadline) rfl
  | signal id woken => exact quiet (l.signal h) rfl
  | wake id => exact quiet (l.wake h) rfl
  | pass ms => exact quiet (Option.some_inj.1 h ▸ ⟨l.nodup, l.fresh, l.settled⟩) rfl
  | cancel token => exact quiet (Option.some_inj.1 h ▸ ⟨l.nodup, l.fresh, l.settled⟩) rfl

end Ledger

/-- **The history is what the callers have been told.**  From a machine without callers, every
caller with a reply has exactly one event, with that reply, and there are no other events. -/
theorem Run.ledger {P : Protocol} [DecidableEq P.Cond] {start m : Machine P}
    {events : List (Event P)} (run : Run start events m) (none : start.callers = []) :
    Ledger events m := by
  induction run with
  | start => exact ⟨by simp [none], by simp [none], by simp [none]⟩
  | step label _ h ih => exact ih.step h

/-! ## What callers have been told -/

/-- What a caller has asked for, and its reply if it has got one. -/
def Caller.standing {P : Protocol} (c : Caller P) : P.Call × Option P.Reply :=
  (c.call, c.phase.reply?)

/-- What all callers have asked for and been answered. -/
def Machine.standings {P : Protocol} (m : Machine P) : List (P.Call × Option P.Reply) :=
  m.callers.map Caller.standing

namespace Ledger

variable {P : Protocol} {events : List (Event P)} {m m' : Machine P}

theorem standings_setPhase (l : Ledger events m) {c : Caller P} (hc : c ∈ m.callers)
    (phase : Phase P) :
    ∃ before behind, m.standings = before ++ c.standing :: behind ∧
      (m.setPhase c.id phase).standings = before ++ (c.call, phase.reply?) :: behind := by
  obtain ⟨before, behind, hm, hs⟩ := l.setPhase_callers hc phase
  refine ⟨before.map Caller.standing, behind.map Caller.standing, ?_, ?_⟩
  · rw [Machine.standings, hm, List.map_append, List.map_cons]
  · rw [Machine.standings, hs, List.map_append, List.map_cons]
    rfl

/-- Nobody is told anything by a phase that goes with the reply. -/
theorem standings_keep (l : Ledger events m) {c : Caller P} (hc : c ∈ m.callers) {phase : Phase P}
    (h : phase.reply? = c.phase.reply?) : (m.setPhase c.id phase).standings = m.standings := by
  obtain ⟨before, behind, hm, hs⟩ := l.standings_setPhase hc phase
  rw [hs, hm, h]
  rfl

theorem standings_wakeAll [DecidableEq P.Cond] (m : Machine P) (on : P.Cond) :
    (m.wakeAll on).standings = m.standings := by
  rw [Machine.standings, Machine.wakeAll, List.map_map]
  refine List.map_congr_left fun c _ => ?_
  simp only [Function.comp_apply]
  split
  · rename_i hw
    rw [Caller.standing, Caller.standing, Machine.waitsOn_iff.1 hw]
    rfl
  · rfl

theorem standings_signal [DecidableEq P.Cond] (l : Ledger events m) {id : Nat} {woken : Option Nat}
    (h : m.step (.signal id woken) = some m') : m'.standings = m.standings := by
  obtain ⟨c, reply, hc, hs⟩ := Machine.step_signal h
  have hmem := Machine.mem_of_find? hc
  cases hs with
  | nobody hp => exact l.standings_keep hmem (by rw [hp]; rfl)
  | all hp =>
    exact ((l.wakeAll _).standings_keep (still_signals hmem hp _) (by rw [hp]; rfl)).trans
      (standings_wakeAll m _)
  | unheard hp _ => exact l.standings_keep hmem (by rw [hp]; rfl)
  | one hp hw hwaits =>
    have hkeep : (m.setPhase c.id (.finished reply)).standings = m.standings :=
      l.standings_keep hmem (by rw [hp]; rfl)
    have l' : Ledger events (m.setPhase c.id (.finished reply)) := l.keep hmem (by rw [hp]; rfl)
    exact (l'.standings_keep (l.still_waits hmem hp hw hwaits _) (by rw [hwaits]; rfl)).trans hkeep

/-- A caller that enters is told its reply, or nothing. -/
theorem standings_enter (l : Ledger events m) {c : Caller P} (hc : c ∈ m.callers)
    (hp : c.phase = .entering) :
    ∃ before behind, m.standings = before ++ (c.call, none) :: behind ∧
      (m.enter c).standings = before ++ (c.call, m.verdict? c) :: behind := by
  have hstanding : c.standing = (c.call, none) := by rw [Caller.standing, hp]; rfl
  rw [← hstanding]
  cases ha : P.attempt c.call m.state with
  | blocked on =>
    simp only [Machine.enter, Machine.verdict?, ha]
    split
    · exact l.standings_setPhase hc (.finished (P.giveUp c.call))
    · exact l.standings_setPhase hc (.waiting on)
  | done s reply signal =>
    have l' : Ledger events { m with state := s } := ⟨l.nodup, l.fresh, l.settled⟩
    simp only [Machine.enter, Machine.verdict?, ha]
    cases signal with
    | nobody => exact l'.standings_setPhase hc (.finished reply)
    | one on => exact l'.standings_setPhase hc (.signalling (.one on) reply)
    | all on => exact l'.standings_setPhase hc (.signalling (.all on) reply)

/-- A caller that takes its reply is forgotten, and the others stay as they are. -/
theorem take (l : Ledger events m) {c : Caller P} {id : Nat} {reply : P.Reply}
    (hc : m.find? id = some c) (hr : m.reply? id = some reply) :
    ∃ before behind, m.standings = before ++ (c.call, some reply) :: behind ∧
      (m.take id).2.standings = before ++ behind ∧ (m.take id).2.state = m.state ∧
      ∃ events', Ledger events' (m.take id).2 := by
  have hmem := Machine.mem_of_find? hc
  have hstanding : c.standing = (c.call, some reply) := by
    simp only [Machine.reply?, hc, Option.bind_eq_bind, Option.bind_some] at hr
    split at hr
    · rename_i hp
      rw [Caller.standing, hp, ← hr]
      rfl
    · cases hr
  obtain rfl := Machine.id_of_find? hc
  obtain ⟨before, behind, hm, -⟩ := l.setPhase_callers hmem .entering
  have htake : (m.take c.id).2 = { m with callers := m.callers.filter (·.id ≠ c.id) } := by
    rw [Machine.take, hr]
  have hfilter : m.callers.filter (·.id ≠ c.id) = before ++ behind := by
    have hn := l.nodup
    rw [hm, List.map_append, List.map_cons, List.nodup_append, List.nodup_cons] at hn
    rw [hm, List.filter_append, List.filter_cons_of_neg (by simp)]
    congr 1
    · refine List.filter_eq_self.2 fun x hx => decide_eq_true fun hid => ?_
      exact hn.2.2 x.id (List.mem_map_of_mem hx) c.id (List.mem_cons_self ..) hid
    · refine List.filter_eq_self.2 fun x hx => decide_eq_true fun hid => ?_
      exact hn.2.1.1 (hid ▸ List.mem_map_of_mem hx)
  refine ⟨before.map Caller.standing, behind.map Caller.standing, ?_, ?_, by rw [htake], ?_⟩
  · rw [Machine.standings, hm, List.map_append, List.map_cons, hstanding]
  · rw [htake, Machine.standings, hfilter, List.map_append]
  · rw [htake]
    exact ⟨_, l.nodup.sublist (List.filter_sublist.map _),
      fun x hx => l.fresh x (List.mem_of_mem_filter hx), .refl _⟩

/-- **What a step tells the callers.**  An event tells one of them its reply. -/
theorem standings_of_step [DecidableEq P.Cond] (l : Ledger events m) {label : Machine.Label P}
    (harrive : ∀ call deadline, label ≠ .arrive call deadline) (h : m.step label = some m') :
    (m.event? label = none ∧ m'.standings = m.standings) ∨
      ∃ e before behind, m.event? label = some e ∧
        m.standings = before ++ (e.call, none) :: behind ∧
        m'.standings = before ++ (e.call, some e.reply) :: behind := by
  cases label with
  | arrive call deadline => exact absurd rfl (harrive call deadline)
  | enter id =>
    obtain ⟨c, hc, hp, rfl⟩ := Machine.step_enter h
    obtain ⟨before, behind, hm, hs⟩ := l.standings_enter (Machine.mem_of_find? hc) hp
    rw [Machine.event?_enter hc hp]
    cases hv : m.verdict? c with
    | none =>
      rw [hv] at hs
      exact .inl ⟨rfl, hs.trans hm.symm⟩
    | some reply =>
      rw [hv] at hs
      exact .inr ⟨⟨c.id, c.call, reply⟩, before, behind, rfl, hm, hs⟩
  | signal id woken => exact .inl ⟨rfl, l.standings_signal h⟩
  | wake id =>
    obtain ⟨c, on, hc, hp, rfl⟩ := Machine.step_wake h
    exact .inl ⟨rfl, l.standings_keep (Machine.mem_of_find? hc) (by rw [hp]; rfl)⟩
  | pass ms => exact .inl ⟨rfl, by rw [← Option.some_inj.1 h]; rfl⟩
  | cancel token => exact .inl ⟨rfl, by rw [← Option.some_inj.1 h]; rfl⟩

/-- **What a step does**: nothing to the resource and nothing to what callers know, or it is the
attempt of one caller, who is told its reply. -/
theorem effect_of_step [DecidableEq P.Cond] (l : Ledger events m) {label : Machine.Label P}
    (harrive : ∀ call deadline, label ≠ .arrive call deadline) (h : m.step label = some m') :
    (m'.state = m.state ∧ m'.standings = m.standings) ∨
      ∃ call reply before behind,
        m.standings = before ++ (call, none) :: behind ∧
        m'.standings = before ++ (call, some reply) :: behind ∧
        ((∃ signal, P.attempt call m.state = .done m'.state reply signal) ∨
          ((∃ on, P.attempt call m.state = .blocked on) ∧ reply = P.giveUp call ∧
            m'.state = m.state)) := by
  obtain ⟨hnone, hsame⟩ | ⟨e, before, behind, hevent, hbefore, hafter⟩ :=
    l.standings_of_step harrive h
  · obtain ⟨-, hstate⟩ | ⟨e, hevent, -⟩ := Machine.step_state h
    · exact .inl ⟨hstate, hsame⟩
    · rw [hnone] at hevent
      cases hevent
  · obtain ⟨hnone, -⟩ | ⟨e', hevent', heffect⟩ := Machine.step_state h
    · rw [hevent] at hnone
      cases hnone
    · obtain rfl := Option.some_inj.1 (hevent.symm.trans hevent')
      exact .inr ⟨e.call, e.reply, before, behind, hbefore, hafter, heffect⟩

end Ledger

end ScriptHost.Monitor
