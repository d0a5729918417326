import ScriptHost.Proofs.Monitor.Grounded

/-!
# Nobody waits in vain

A caller that waits is woken by the signal of another one, which comes after that one has left the
guarded section.  Meanwhile others may enter and take what the signal is about, the caller that it
wakes may be late, and a signal to one reaches one caller only.  So what a single caller finds says
nothing about whether somebody is left waiting for something that is there.

A *demand* is what callers of one kind want, and how much there is of it.  It is *announced* by a
protocol if callers wait for it only when there is nothing, if a caller that gets some takes at
least one piece, and if a caller that adds some tells as many callers as it has added pieces for, or
all of them.  What is kept by every step is then a count (`Demand.Covered`): as long as somebody
waits, there is for each piece a caller that is about to enter or to wake one who waits, or all who
wait are about to be woken.  When nobody is about to do anything, there is nothing left.

## What is here

* `Demand.Announced` — the three obligations, on attempts alone.
* `Demand.Covered.replace` — what one caller may do without breaking the count.
* `Demand.Kept.step` — every step keeps the count.
* `Demand.Kept.supply_eq_zero` — when nothing moves any more and somebody still waits, there is
  nothing to be had.
-/

set_option autoImplicit false

namespace ScriptHost.Monitor

variable {P : Protocol}

/-- Whether a caller sleeps until it is woken. -/
def Phase.isWaiting : Phase P → Bool
  | .waiting _ => true
  | .entering | .signalling _ _ | .finished _ => false

/-- The signal wakes one of those who wait for a condition. -/
def Signal.isOne {Cond : Type} [DecidableEq Cond] (on : Cond) : Signal Cond → Bool
  | .one on' => on' = on
  | .nobody | .all _ => false

/-- The signal wakes all who wait for a condition. -/
def Signal.isAll {Cond : Type} [DecidableEq Cond] (on : Cond) : Signal Cond → Bool
  | .all on' => on' = on
  | .nobody | .one _ => false

/-- What callers of one kind want: the condition that they wait for, and how many of them could be
served. -/
structure Demand (P : Protocol) where
  on : P.Cond
  wants : P.Call → Bool
  supply : P.State → Nat

namespace Demand

variable [DecidableEq P.Cond] (d : Demand P)

/-- The attempts of a protocol that a demand is told of. -/
structure Announced : Prop where
  /-- Who wants something waits for its condition, and only if there is nothing. -/
  blocked : ∀ call s on, d.wants call = true → P.attempt call s = .blocked on →
    on = d.on ∧ d.supply s = 0
  /-- Who is served takes at least one piece, and what is added is told to one caller for each
  piece, or to all. -/
  done : ∀ call s s' reply signal, P.attempt call s = .done s' reply signal →
    signal.isAll d.on = true ∨ d.supply s' = 0 ∨
      d.supply s' + (d.wants call).toNat ≤ d.supply s + (signal.isOne d.on).toNat
  /-- A signal to one does not go to somebody who wants something else. -/
  one : (∀ call s, P.attempt call s = .blocked d.on → d.wants call = true) ∨
    ∀ call s s' reply signal, P.attempt call s = .done s' reply signal → signal.isOne d.on = false

/-- The caller waits for what it wants. -/
def lacks (c : Caller P) : Bool := d.wants c.call && c.phase.isWaiting

/-- The caller is about to take a piece, or to wake somebody who will. -/
def promises (c : Caller P) : Bool :=
  match c.phase with
  | .entering => d.wants c.call
  | .signalling signal _ => signal.isOne d.on
  | .waiting _ | .finished _ => false

/-- The caller is about to wake all who wait. -/
def rouses (c : Caller P) : Bool :=
  match c.phase with
  | .signalling signal _ => signal.isAll d.on
  | .entering | .waiting _ | .finished _ => false

/-- If somebody waits, all are about to be woken, or there is a promise for each piece. -/
def Covered (pieces : Nat) (callers : List (Caller P)) : Prop :=
  (∃ c ∈ callers, d.lacks c = true) →
    (∃ c ∈ callers, d.rouses c = true) ∨ pieces ≤ callers.countP d.promises

namespace Covered

variable {d} {pieces pieces' : Nat} {callers callers' others : List (Caller P)} {c c' : Caller P}

theorem zero : d.Covered 0 callers := fun _ => .inr (Nat.zero_le _)

/-- Nothing has to be promised if nobody waits. -/
theorem of_nobody (h : ∀ c ∈ callers, d.lacks c = false) : d.Covered pieces callers := by
  rintro ⟨c, hc, hlacks⟩
  rw [h c hc] at hlacks
  cases hlacks

theorem of_rouses (hc : c ∈ callers) (h : d.rouses c = true) : d.Covered pieces callers :=
  fun _ => .inl ⟨c, hc, h⟩

theorem perm (h : d.Covered pieces callers) (hp : callers.Perm callers') :
    d.Covered pieces callers' := by
  rintro ⟨c, hc, hlacks⟩
  rw [← hp.countP_eq]
  refine (h ⟨c, hp.mem_iff.2 hc, hlacks⟩).imp_left ?_
  rintro ⟨c, hc, hrouses⟩
  exact ⟨c, hp.mem_iff.1 hc, hrouses⟩

/-- **One caller goes on**: it does not begin to wait, it leaves no general signal unsent, and what
it promises more or less than before goes with the pieces. -/
theorem replace (h : d.Covered pieces (c :: others)) (hlacks : d.lacks c' = true → d.lacks c = true)
    (hrouses : d.rouses c = true → d.rouses c' = true)
    (hpieces : pieces' + (d.promises c).toNat ≤ pieces + (d.promises c').toNat) :
    d.Covered pieces' (c' :: others) := by
  rintro ⟨x, hx, hwaits⟩
  have hbefore : ∃ x ∈ c :: others, d.lacks x = true := by
    rcases List.mem_cons.1 hx with rfl | hx
    · exact ⟨c, List.mem_cons_self .., hlacks hwaits⟩
    · exact ⟨x, List.mem_cons_of_mem _ hx, hwaits⟩
  obtain ⟨y, hy, hall⟩ | hcount := h hbefore
  · rcases List.mem_cons.1 hy with rfl | hy
    · exact .inl ⟨c', List.mem_cons_self .., hrouses hall⟩
    · exact .inl ⟨y, List.mem_cons_of_mem _ hy, hall⟩
  · refine .inr ?_
    rw [List.countP_cons] at hcount ⊢
    cases hc : d.promises c <;> cases hc' : d.promises c' <;>
      simp only [hc, hc', Bool.toNat_true, Bool.toNat_false, if_true, Bool.false_eq_true, if_false]
        at hcount hpieces ⊢ <;> omega

theorem cons (h : d.Covered pieces callers) (hc : d.lacks c = false) :
    d.Covered pieces (c :: callers) := by
  rintro ⟨x, hx, hwaits⟩
  rcases List.mem_cons.1 hx with rfl | hx
  · rw [hc] at hwaits
    cases hwaits
  · refine (h ⟨x, hx, hwaits⟩).imp ?_ fun hcount => ?_
    · rintro ⟨y, hy, hall⟩
      exact ⟨y, List.mem_cons_of_mem _ hy, hall⟩
    · rw [List.countP_cons]
      exact Nat.le_trans hcount (Nat.le_add_right ..)

/-- Those who are about to do nothing may be forgotten. -/
theorem filter (h : d.Covered pieces callers) (p : Caller P → Bool)
    (hp : ∀ c ∈ callers, p c = false → d.rouses c = false ∧ d.promises c = false) :
    d.Covered pieces (callers.filter p) := by
  rintro ⟨x, hx, hwaits⟩
  refine (h ⟨x, List.mem_of_mem_filter hx, hwaits⟩).imp ?_ fun hcount => ?_
  · rintro ⟨y, hy, hall⟩
    refine ⟨y, List.mem_filter.2 ⟨hy, Bool.of_not_eq_false fun hno => ?_⟩, hall⟩
    rw [(hp y hy hno).1] at hall
    cases hall
  · rw [List.countP_filter]
    refine Nat.le_trans hcount (List.countP_mono_left fun y hy hpromises => ?_)
    refine Bool.and_eq_true_iff.2 ⟨hpromises, Bool.of_not_eq_false fun hno => ?_⟩
    rw [(hp y hy hno).2] at hpromises
    cases hpromises

/-- All may go on at once, as long as nobody begins to wait or takes back what it is about to do. -/
theorem map (h : d.Covered pieces callers) (f : Caller P → Caller P)
    (hlacks : ∀ c ∈ callers, d.lacks (f c) = true → d.lacks c = true)
    (hrouses : ∀ c ∈ callers, d.rouses c = true → d.rouses (f c) = true)
    (hpromises : ∀ c ∈ callers, d.promises c = true → d.promises (f c) = true) :
    d.Covered pieces (callers.map f) := by
  rintro ⟨x, hx, hwaits⟩
  obtain ⟨c, hc, rfl⟩ := List.mem_map.1 hx
  refine (h ⟨c, hc, hlacks c hc hwaits⟩).imp ?_ fun hcount => ?_
  · rintro ⟨y, hy, hall⟩
    exact ⟨f y, List.mem_map_of_mem hy, hrouses y hy hall⟩
  · rw [List.countP_map]
    exact Nat.le_trans hcount (List.countP_mono_left hpromises)

end Covered

/-! ## What every step keeps -/

/-- What the states of a machine have in common, as far as a demand goes. -/
structure Kept (m : Machine P) : Prop where
  grounded : m.Grounded
  covered : d.Covered (d.supply m.state) m.callers

end Demand

namespace Demand

variable [DecidableEq P.Cond] {d : Demand P} {events : List (Event P)} {m m' : Machine P}
  {c : Caller P} {pieces pieces' : Nat}

theorem covered_setPhase (l : Ledger events m) (h : d.Covered pieces m.callers)
    (hc : c ∈ m.callers) {phase : Phase P}
    (hlacks : d.lacks { c with phase } = true → d.lacks c = true)
    (hrouses : d.rouses c = true → d.rouses { c with phase } = true)
    (hpieces : pieces' + (d.promises c).toNat ≤ pieces + (d.promises { c with phase }).toNat) :
    d.Covered pieces' (m.setPhase c.id phase).callers := by
  obtain ⟨others, hm, hs⟩ := l.setPhase_perm hc phase
  exact ((h.perm hm).replace hlacks hrouses hpieces).perm hs.symm

/-- A caller that enters waits if there is nothing, and otherwise takes a piece or announces what it
adds. -/
theorem covered_of_entered (hd : d.Announced) (l : Ledger events m)
    (h : d.Covered (d.supply m.state) m.callers) (hc : c ∈ m.callers) (hp : c.phase = .entering)
    (he : m.Entered c m') : d.Covered (d.supply m'.state) m'.callers := by
  have hpromises : d.promises c = d.wants c.call := by rw [promises, hp]
  have hrouses : d.rouses c = false := by rw [rouses, hp]
  -- a caller that is held up leaves everything as it is, or there is nothing
  have blocked {on : P.Cond} (ha : P.attempt c.call m.state = .blocked on) {phase : Phase P}
      (hphase : d.promises { c with phase } = false) :
      d.Covered (d.supply m.state) (m.setPhase c.id phase).callers := by
    cases hw : d.wants c.call with
    | true =>
      rw [(hd.blocked _ _ _ hw ha).2]
      exact .zero
    | false =>
      refine covered_setPhase l h hc (fun hlacks => ?_) (by simp [hrouses])
        (by simp [hpromises, hw])
      simp [lacks, hw] at hlacks
  -- one that has been served has no more than that to say
  have done {s : P.State} {reply : P.Reply} {signal : Signal P.Cond}
      (ha : P.attempt c.call m.state = .done s reply signal) {phase : Phase P}
      (hwaits : phase.isWaiting = false) (hall : d.rouses { c with phase } = signal.isAll d.on)
      (hone : d.promises { c with phase } = signal.isOne d.on) :
      d.Covered (d.supply s) (({ m with state := s }).setPhase c.id phase).callers := by
    have l' : Ledger events { m with state := s } := ⟨l.nodup, l.fresh, l.settled⟩
    obtain hsignal | hzero | hcount := hd.done _ _ _ _ _ ha
    · obtain ⟨others, -, hs⟩ := l'.setPhase_perm hc phase
      exact .of_rouses (hs.mem_iff.2 (List.mem_cons_self ..)) (hall.trans hsignal)
    · rw [hzero]
      exact .zero
    · refine covered_setPhase l' h hc (fun hlacks => ?_) (by simp [hrouses]) ?_
      · simp [lacks, hwaits] at hlacks
      · rw [hpromises, hone]
        exact hcount
  cases he with
  | leaves ha => exact blocked ha rfl
  | waits ha => exact blocked ha rfl
  | finishes ha => exact done ha rfl rfl rfl
  | signals ha => exact done ha rfl rfl rfl

/-- Whoever wants something and waits, waits for the condition of what it wants. -/
theorem Kept.condition (hd : d.Announced) (k : d.Kept m) (hc : c ∈ m.callers)
    (hlacks : d.lacks c = true) : c.phase = .waiting d.on := by
  obtain ⟨hw, hwaits⟩ := Bool.and_eq_true_iff.1 hlacks
  cases hp : c.phase with
  | waiting on =>
    obtain ⟨s, ha⟩ := k.grounded.blocked hc hp
    rw [(hd.blocked _ _ _ hw ha).1]
  | entering | signalling | finished =>
    rw [hp] at hwaits
    cases hwaits

/-- Who is woken by the signal of one that has a piece to announce wants it. -/
theorem Kept.wants_of_one (hd : d.Announced) (k : d.Kept m) (hc : c ∈ m.callers) {reply : P.Reply}
    (hp : c.phase = .signalling (.one d.on) reply) {waiter : Caller P} (hmem : waiter ∈ m.callers)
    (hwaits : waiter.phase = .waiting d.on) : d.wants waiter.call = true := by
  obtain hone | hnone := hd.one
  · obtain ⟨s, ha⟩ := k.grounded.blocked hmem hwaits
    exact hone _ _ ha
  · obtain ⟨s, s', ha⟩ := k.grounded.done hc hp
    have hno := hnone _ _ _ _ _ ha
    simp [Signal.isOne] at hno

theorem covered_wakeAll (h : d.Covered pieces m.callers) (on : P.Cond) :
    d.Covered pieces (m.wakeAll on).callers := by
  refine h.map _ (fun x _ => ?_) (fun x _ => ?_) fun x _ => ?_
  all_goals split
  all_goals try exact id
  all_goals rename_i hw
  · simp [lacks, Phase.isWaiting]
  · simp [rouses, Machine.waitsOn_iff.1 hw]
  · simp [promises, Machine.waitsOn_iff.1 hw]

omit [DecidableEq P.Cond] in
theorem calm_setPhase (h : ∀ x ∈ m.callers, d.lacks x = false) (id : Nat) {phase : Phase P}
    (hphase : phase.isWaiting = false) :
    ∀ x ∈ (m.setPhase id phase).callers, d.lacks x = false := by
  intro x hx
  obtain ⟨y, hy, rfl⟩ := List.mem_map.1 hx
  split
  · rw [lacks, hphase, Bool.and_false]
  · exact h y hy

/-- A signal wakes somebody for the piece that it is about, or there is nobody who waits for it. -/
theorem covered_of_signalled (hd : d.Announced) (l : Ledger events m) (k : d.Kept m)
    (hc : c ∈ m.callers) {reply : P.Reply} (hs : m.Signalled c reply m') :
    d.Covered (d.supply m'.state) m'.callers := by
  -- a signal that is about something else
  have other (hone : d.promises c = false) (hall : d.rouses c = false) :
      d.Covered (d.supply m.state) (m.setPhase c.id (.finished reply)).callers :=
    covered_setPhase l k.covered hc (by simp [lacks, Phase.isWaiting]) (by simp [hall])
      (by simp [hone])
  rw [hs.state]
  cases hs with
  | nobody hp => exact other (by rw [promises, hp]; rfl) (by rw [rouses, hp]; rfl)
  | @all on hp =>
    by_cases hon : on = d.on
    · refine .of_nobody (calm_setPhase (fun x hx => ?_) _ rfl)
      obtain ⟨y, hy, rfl⟩ := List.mem_map.1 hx
      split
      · rw [lacks, Phase.isWaiting, Bool.and_false]
      · rename_i hw
        refine Bool.eq_false_iff.2 fun hlacks => hw ?_
        rw [Machine.waitsOn_iff, hon]
        exact k.condition hd hy hlacks
    · refine covered_setPhase (l.wakeAll on) (covered_wakeAll k.covered on)
        (Ledger.still_signals hc hp on) (by simp [lacks, Phase.isWaiting]) ?_ ?_
      · simp [rouses, hp, Signal.isAll, hon]
      · simp [promises, hp, Signal.isOne]
  | @unheard on hp hnone =>
    by_cases hon : on = d.on
    · refine .of_nobody (calm_setPhase (fun x hx => Bool.eq_false_iff.2 fun hlacks => ?_) _ rfl)
      exact hnone x hx (hon ▸ k.condition hd hx hlacks)
    · exact other (by simp [promises, hp, Signal.isOne, hon]) (by rw [rouses, hp]; rfl)
  | @one on waiter hp hmem hwaits =>
    have hstill := l.still_waits hc hp hmem hwaits (.finished reply)
    have l' : Ledger events (m.setPhase c.id (.finished reply)) := l.keep hc (by rw [hp]; rfl)
    by_cases hon : on = d.on
    · -- the piece that the signal is about is promised by the one that is woken then
      subst hon
      have hk := k.covered
      generalize d.supply m.state = pieces at hk
      cases pieces with
      | zero => exact .zero
      | succ pieces =>
        have hsent : d.Covered pieces (m.setPhase c.id (.finished reply)).callers :=
          covered_setPhase l hk hc (by simp [lacks, Phase.isWaiting])
            (by simp [rouses, hp, Signal.isAll]) (by simp [promises, hp, Signal.isOne])
        exact covered_setPhase l' hsent hstill (by simp [lacks, Phase.isWaiting])
          (by simp [rouses, hwaits])
          (by simp [promises, hwaits, k.wants_of_one hd hc hp hmem hwaits])
    · refine covered_setPhase l' (other ?_ ?_) hstill (by simp [lacks, Phase.isWaiting])
        (by simp [rouses, hwaits]) (by simp [promises, hwaits])
      · simp [promises, hp, Signal.isOne, hon]
      · simp [rouses, hp, Signal.isAll]

namespace Kept

theorem empty (none : m.callers = []) : d.Kept m :=
  ⟨fun c hc => by simp [none] at hc, .of_nobody (by simp [none])⟩

/-- **Every step keeps the count.** -/
theorem step (hd : d.Announced) (l : Ledger events m) (k : d.Kept m) {label : Machine.Label P}
    (h : m.step label = some m') : d.Kept m' := by
  refine ⟨k.grounded.step l h, ?_⟩
  cases label with
  | arrive call deadline =>
    have hnew : d.lacks ⟨m.nextId, call, deadline, .entering⟩ = false := Bool.and_false _
    rw [← Option.some_inj.1 h]
    exact (k.covered.cons hnew).perm (List.perm_append_singleton ..).symm
  | pass ms => exact Option.some_inj.1 h ▸ k.covered
  | cancel token => exact Option.some_inj.1 h ▸ k.covered
  | enter id =>
    obtain ⟨c, hc, hp, rfl⟩ := Machine.step_enter h
    exact covered_of_entered hd l k.covered (Machine.mem_of_find? hc) hp (m.entered c)
  | signal id woken =>
    obtain ⟨c, reply, hc, hs⟩ := Machine.step_signal h
    exact covered_of_signalled hd l k (Machine.mem_of_find? hc) hs
  | wake id =>
    obtain ⟨c, on, hc, hp, rfl⟩ := Machine.step_wake h
    exact covered_setPhase l k.covered (Machine.mem_of_find? hc) (by simp [lacks, Phase.isWaiting])
      (by simp [rouses, hp]) (by simp [promises, hp])

/-- A caller that takes its reply is forgotten, and had nothing more to do. -/
theorem take (l : Ledger events m) (k : d.Kept m) (id : Nat) : d.Kept (m.take id).2 := by
  rw [Machine.take]
  split
  · rename_i reply hr
    refine ⟨fun x hx => k.grounded x (List.mem_of_mem_filter hx),
      k.covered.filter _ fun x hx hid => ?_⟩
    obtain ⟨c, hc, hphase⟩ := Option.bind_eq_some_iff.1 hr
    obtain rfl := Machine.id_of_find? hc
    obtain rfl := l.eq_of_id_eq hx (Machine.mem_of_find? hc) (by simpa using hid)
    split at hphase
    · rename_i hp
      rw [rouses, promises, hp]
      exact ⟨rfl, rfl⟩
    · cases hphase
  · exact k

/-- **Nobody waits in vain**: when nothing moves any more and somebody still waits for what it
wants, there is nothing of it. -/
theorem supply_eq_zero (k : d.Kept m) (quiet : m.Quiet) (hc : c ∈ m.callers)
    (hw : d.wants c.call = true) {on : P.Cond} (hp : c.phase = .waiting on) :
    d.supply m.state = 0 := by
  -- nobody is about to do anything
  have still (x : Caller P) (hx : x ∈ m.callers) : d.rouses x = false ∧ d.promises x = false := by
    have hstill := quiet x hx
    cases hphase : x.phase with
    | waiting | finished =>
      rw [rouses, promises, hphase]
      exact ⟨rfl, rfl⟩
    | entering | signalling =>
      rw [hphase] at hstill
      cases hstill
  obtain ⟨x, hx, hall⟩ | hcount := k.covered ⟨c, hc, by rw [lacks, hw, hp]; rfl⟩
  · rw [(still x hx).1] at hall
    cases hall
  · have hnone : m.callers.countP d.promises = 0 :=
      List.countP_eq_zero.2 fun x hx => by simp [(still x hx).2]
    omega

end Kept

theorem Announced.kept_of_run {start : Machine P} (hd : d.Announced) (run : Run start events m)
    (none : start.callers = []) : d.Kept m := by
  induction run with
  | start => exact .empty none
  | step label run h ih => exact ih.step hd (run.ledger none) h

end Demand

end ScriptHost.Monitor
