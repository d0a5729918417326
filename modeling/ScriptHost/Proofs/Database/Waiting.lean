import ScriptHost.Proofs.Database.Lending
import ScriptHost.Proofs.Monitor.Demand

/-!
# Who waits for a connection

A place comes back to a pool when a connection is given back, by a user that is done with it or
could not set it up, and when one could not be opened.  Each time one of those who wait is woken,
after the pool has been left; others may come first.  Still nobody is forgotten: when nobody can go
on any more and somebody waits, no connection is free and the pool has as many as it may have.

There is one exception.  A user that could not set up a connection that has been used before has not
left the pool when it wants to give the connection back: it waits for itself, and so does everybody
else from then on, whatever connections are free.

* `Pool.demand` — free connections and free places are one demand in the sense of `Monitor.Demand`.
* `Lending.Settled` — nobody can go on.
* `Lending.stuck_of_step` — while a user waits for itself, the pool stays as it is.
* `busy_of_settled` — who is still held up, and why.
-/

set_option autoImplicit false

namespace ScriptHost.Database

open Monitor

namespace Pool

/-- The call wants a connection or a place for one. -/
def Call.isReserve : Call → Bool
  | .reserve => true
  | .failed | .giveBack _ => false

/-- How many calls a pool could serve: with its free connections, and with places for more. -/
def available (p : Pool) : Nat :=
  if p.maxSize = 0 then 0 else p.idle.length + (p.maxSize - p.created)

/-- The demand for connections. -/
def demand : Demand protocol := ⟨(), Call.isReserve, available⟩

/-- Only those are held up who want a connection of a pool that has none. -/
theorem eq_reserve_of_blocked {c : Call} {p : Pool} {on : Unit} (h : attempt c p = .blocked on) :
    c = .reserve ∧ p.available = 0 := by
  cases c with
  | reserve =>
    simp only [attempt] at h
    split at h
    · cases h
    · rename_i hsize
      split at h
      · cases h
      · rename_i hidle
        split at h <;> cases h
        rename_i hfull
        refine ⟨rfl, ?_⟩
        rw [available, if_neg hsize, hidle, List.length_nil, Nat.sub_eq_zero_of_le hfull]
  | failed | giveBack => cases h

/-- A call takes at most what is there, and adds one connection or place at most, which it tells. -/
theorem available_of_done {c : Call} {p p' : Pool} {r : Reply} {signal : Signal Unit}
    (h : attempt c p = .done p' r signal) :
    p'.available = 0 ∨
      p'.available + c.isReserve.toNat ≤ p.available + (signal.isOne ()).toNat := by
  have hsize := maxSize_attempt h
  by_cases hzero : p.maxSize = 0
  · exact .inl (by rw [available, hsize, if_pos hzero])
  refine .inr ?_
  simp only [available, hsize, if_neg hzero]
  cases c with
  | reserve =>
    simp only [attempt, if_neg hzero] at h
    split at h
    · rename_i hidle
      cases h
      simp only [hidle, List.length_cons, Call.isReserve, Bool.toNat_true]
      omega
    · rename_i hidle
      split at h <;> cases h
      simp only [hidle, List.length_nil, Call.isReserve, Bool.toNat_true]
      omega
  | failed | giveBack =>
    cases h
    simp only [Call.isReserve, Signal.isOne, List.length_cons, Bool.toNat_false, decide_true,
      Bool.toNat_true]
    omega

theorem demand_announced : demand.Announced where
  blocked c p on _ h := ⟨rfl, (eq_reserve_of_blocked h).2⟩
  done c p p' r signal h := .inr (available_of_done h)
  one := .inl fun c p h => by
    rw [(eq_reserve_of_blocked h).1]
    rfl

end Pool

namespace Lending

variable {E : Engine} {l l' : Lending E} {size lost : Nat}

/-! ## Nobody is forgotten -/

theorem step_call (l : Lending E) (c : Pool.Call) (deadline : Deadline) :
    l.pool.step (.arrive c deadline) = some (l.call c deadline).pool := rfl

/-- A step is one of the pool's, or one at which somebody takes its reply, or leaves the pool as it
is. -/
theorem pool_of_step {label : Label E} (h : l.step label = some l') :
    l'.pool = l.pool ∨ (∃ label, l.pool.step label = some l'.pool) ∨
      ∃ id, l'.pool = (l.pool.take id).2 := by
  cases label with
  | ask deadline =>
    cases h
    exact .inr (.inl ⟨_, step_call l .reserve deadline⟩)
  | pool label =>
    obtain ⟨-, pool, hpool, rfl⟩ := step_pool h
    exact .inr (.inl ⟨_, hpool⟩)
  | receive id =>
    simp only [step, receive, Option.bind_eq_bind, Option.bind_eq_some_iff] at h
    obtain ⟨c, -, reply, -, h⟩ := h
    cases h
    exact .inr (.inr ⟨id, rfl⟩)
  | openUp i =>
    simp only [step, openUp] at h
    split at h
    · split at h <;> cases h
      · exact .inl rfl
      · exact .inr (.inl ⟨_, step_call (l.drop i) .failed .never⟩)
    · cases h
  | setUp i succeeded =>
    obtain ⟨hand, c, -, -, -, ⟨-, rfl⟩ | ⟨-, ⟨ms, rfl⟩ | rfl | rfl⟩⟩ := setUp_cases h
    · exact .inl rfl
    · exact .inl rfl
    · exact .inr (.inl ⟨_, step_call (l.drop i) _ .never⟩)
    · exact .inl rfl
  | execute i request =>
    simp only [step, execute] at h
    split at h <;> cases h
    exact .inl rfl
  | finish i =>
    simp only [step, finish] at h
    split at h <;> cases h
    exact .inr (.inl ⟨_, step_call (l.drop i) _ .never⟩)

theorem kept_of_step {d : Demand Pool.protocol} (hd : d.Announced) (h : Sound size lost l)
    (k : d.Kept l.pool) {label : Label E} (hs : l.step label = some l') : d.Kept l'.pool := by
  obtain ⟨events, hl⟩ := h.ledger
  obtain hsame | ⟨label, hstep⟩ | ⟨id, htake⟩ := pool_of_step hs
  · rw [hsame]
    exact k
  · exact k.step hd hl hstep
  · rw [htake]
    exact k.take hl id

theorem kept_of_run {d : Demand Pool.protocol} (hd : d.Announced) (h : Sound size lost l)
    (k : d.Kept l.pool) {labels : List (Label E)} (hr : l.run labels = some l') :
    d.Kept l'.pool := by
  induction labels generalizing l lost with
  | nil =>
    cases hr
    exact k
  | cons label labels ih =>
    obtain ⟨l₁, hs, hr⟩ := Option.bind_eq_some_iff.1 hr
    exact ih (h.step hs) (kept_of_step hd h k hs) hr

/-- When no call on the pool is about to do anything, a caller that waits wants a connection, none
is free, and the pool has as many as it may have, opened or being opened. -/
theorem busy_of_quiet {store : E.State} {target : Target} {maxSize : Nat} (hsize : 1 ≤ maxSize)
    {labels : List (Label E)} (run : (new store target maxSize).run labels = some l)
    (quiet : l.pool.Quiet) {c : Caller Pool.protocol} (hc : c ∈ l.pool.callers) {on : Unit}
    (hp : c.phase = .waiting on) :
    c.call = .reserve ∧ l.pool.state.idle = [] ∧
      l.pool.state.created = (Pool.ofTarget target maxSize).maxSize := by
  have hsound := (sound_new store target maxSize).run run
  have hkept : Pool.demand.Kept l.pool :=
    kept_of_run Pool.demand_announced (sound_new store target maxSize) (.empty rfl) run
  obtain ⟨p, ha⟩ := hkept.grounded.blocked hc hp
  have hcall := (Pool.eq_reserve_of_blocked ha).1
  have hzero : l.pool.state.available = 0 :=
    hkept.supply_eq_zero quiet hc (by rw [hcall]; rfl) hp
  have hpos : 1 ≤ (Pool.ofTarget target maxSize).maxSize := by
    cases target
    · exact Nat.le_min.2 ⟨hsize, Nat.le_refl 1⟩
    · exact hsize
  have hbounded := hsound.balanced.bounded
  rw [hsound.size_eq] at hbounded
  rw [Pool.available, hsound.size_eq, if_neg (by omega)] at hzero
  exact ⟨hcall, List.length_eq_zero_iff.1 (by omega), by omega⟩

/-! ## Nobody can go on -/

/-- The steps that calls and users take by themselves, without any time passing. -/
def Label.isDue : Label E → Bool
  | .pool (.enter _) | .pool (.signal ..) | .receive _ | .openUp _ | .setUp .. => true
  | .ask _ | .pool _ | .execute .. | .finish _ => false

/-- No call is woken or can run, and no user is on its way to a connection. -/
def Settled (l : Lending E) : Prop := ∀ label : Label E, label.isDue = true → l.step label = none

/-- In a state in which nobody can go on, only a user that waits for itself keeps others out. -/
theorem Settled.not_guarded (settled : l.Settled) {events : List (Event Pool.protocol)}
    (hl : Ledger events l.pool) (hstuck : ∀ c, .stuck c ∉ l.hands) : l.isGuarded = false := by
  refine Bool.or_eq_false_iff.2 ⟨List.any_eq_false.2 fun hand hhand => ?_,
    List.any_eq_false.2 fun c hc => ?_⟩
  · cases hand with
    | place | fresh | ready | lost => exact Bool.false_ne_true
    | stuck c => exact absurd hhand (hstuck c)
    | reused c deadline =>
      obtain ⟨i, hi⟩ := List.mem_iff_getElem?.1 hhand
      have hnone := settled (.setUp i true) rfl
      simp only [step, setUp, hi] at hnone
      cases hnone
  · rw [Bool.not_eq_true]
    split
    · rename_i hp
      have hnone := settled (.receive c.id) rfl
      simp only [step, receive, hl.find?_of_mem hc, Machine.reply?, hp, Option.bind_eq_bind,
        Option.bind_some] at hnone
      cases hnone
    · rfl

theorem Settled.quiet (settled : l.Settled) {events : List (Event Pool.protocol)}
    (hl : Ledger events l.pool) (hstuck : ∀ c, .stuck c ∉ l.hands) : l.pool.Quiet := by
  have hfree := settled.not_guarded hl hstuck
  refine hl.quiet_of_halted (fun id => ?_) fun id woken => ?_
  · have hnone := settled (.pool (.enter id)) rfl
    simpa only [step, stepPool, hfree, Bool.false_eq_true, if_false, Option.map_eq_none_iff]
      using hnone
  · have hnone := settled (.pool (.signal id woken)) rfl
    simpa only [step, stepPool, Option.map_eq_none_iff] using hnone

/-! ## A user that waits for itself -/

theorem isGuarded_of_stuck {c : Nat} (h : .stuck c ∈ l.hands) : l.isGuarded = true :=
  Bool.or_eq_true_iff.2 (.inl (List.any_eq_true.2 ⟨_, h, rfl⟩))

/-- **While a user waits for itself**, it goes on doing so, and no connection is taken from the pool
or given back to it. -/
theorem stuck_of_step {c : Nat} (h : .stuck c ∈ l.hands) {label : Label E}
    (hs : l.step label = some l') : .stuck c ∈ l'.hands ∧ l'.pool.state = l.pool.state := by
  cases label with
  | ask deadline =>
    cases hs
    exact ⟨h, rfl⟩
  | pool label =>
    cases label with
    | arrive => cases hs
    | enter id =>
      rw [step, stepPool, if_pos (isGuarded_of_stuck h)] at hs
      cases hs
    | signal | wake | pass | cancel =>
      obtain ⟨-, pool, hp, rfl⟩ := step_pool hs
      obtain ⟨-, hstate⟩ | ⟨e, hevent, -⟩ := Machine.step_state hp
      · exact ⟨h, hstate⟩
      · cases hevent
  | receive id =>
    simp only [step, receive, Option.bind_eq_bind, Option.bind_eq_some_iff] at hs
    obtain ⟨c', -, reply, hr, hs⟩ := hs
    cases hs
    refine ⟨List.mem_append_left _ h, ?_⟩
    rw [Machine.take, hr]
  | openUp i =>
    simp only [step, openUp] at hs
    split at hs
    · rename_i deadline hi
      split at hs <;> cases hs
      · exact ⟨mem_hold_of_ne hi Hand.noConfusion h _, rfl⟩
      · exact ⟨mem_drop_of_ne hi Hand.noConfusion h, rfl⟩
    · cases hs
  | setUp i succeeded =>
    obtain ⟨hand, c', hi, -, hne, ⟨-, rfl⟩ | ⟨-, ⟨ms, rfl⟩ | rfl | rfl⟩⟩ := setUp_cases hs
    · exact ⟨mem_hold_of_ne hi (hne c).2 h _, rfl⟩
    · exact ⟨mem_hold_of_ne hi (hne c).2 h _, rfl⟩
    · exact ⟨mem_drop_of_ne hi (hne c).2 h, rfl⟩
    · exact ⟨mem_hold_of_ne hi (hne c).2 h _, rfl⟩
  | execute i request =>
    simp only [step, execute] at hs
    split at hs <;> cases hs
    exact ⟨h, rfl⟩
  | finish i =>
    simp only [step, finish] at hs
    split at hs
    · rename_i c' hi
      cases hs
      exact ⟨mem_drop_of_ne hi Hand.noConfusion h, rfl⟩
    · cases hs

theorem stuck_of_run {c : Nat} (h : .stuck c ∈ l.hands) {labels : List (Label E)}
    (hr : l.run labels = some l') : .stuck c ∈ l'.hands ∧ l'.pool.state = l.pool.state :=
  invariant_of_run (P := fun l' => .stuck c ∈ l'.hands ∧ l'.pool.state = l.pool.state)
    (fun _ _ _ h' hs => (stuck_of_step h'.1 hs).imp_right (·.trans h'.2)) ⟨h, rfl⟩ hr

end Lending

/-- **Who is still held up when nobody can go on.**  If no user waits for itself, a call on the pool
that has no reply yet is one that waits for a connection; none is free then, and the pool has as
many as it may have, opened or being opened.  A user that waits for itself does so for ever, and
whatever happens no connection is taken from the pool or given back any more. -/
theorem busy_of_settled {E : Engine} {store : E.State} {target : Target} {maxSize : Nat}
    (hsize : 1 ≤ maxSize) {labels : List (Lending.Label E)} {l : Lending E}
    (run : (Lending.new store target maxSize).run labels = some l) (settled : l.Settled) :
    ((∀ c, .stuck c ∉ l.hands) → ∀ caller ∈ l.pool.callers, caller.phase.reply? = none →
        caller.call = .reserve ∧ caller.phase = .waiting () ∧ l.pool.state.idle = [] ∧
          l.pool.state.created = (Pool.ofTarget target maxSize).maxSize) ∧
      ∀ c, .stuck c ∈ l.hands → ∀ labels' l', l.run labels' = some l' →
        .stuck c ∈ l'.hands ∧ l'.pool.state = l.pool.state := by
  refine ⟨fun hstuck caller hcaller hreply => ?_, fun c hc labels' l' run' =>
    Lending.stuck_of_run hc run'⟩
  obtain ⟨events, hl⟩ := ((Lending.sound_new store target maxSize).run run).ledger
  have quiet := settled.quiet hl hstuck
  have hstill := quiet caller hcaller
  cases hp : caller.phase with
  | entering | signalling =>
    rw [hp] at hstill
    cases hstill
  | finished reply =>
    rw [hp] at hreply
    cases hreply
  | waiting on =>
    obtain ⟨hcall, hidle, hcreated⟩ := Lending.busy_of_quiet hsize run quiet hcaller hp
    exact ⟨hcall, rfl, hidle, hcreated⟩

/-! ## Two states in which nobody can go on -/

namespace Lending

/-- What a user has in hand that is on its way to a connection. -/
def onItsWay : Hand → Bool
  | .place _ | .fresh .. | .reused .. => true
  | .ready _ | .stuck _ | .lost _ => false

variable {E : Engine} {l : Lending E}

/-- Nobody can go on if nobody has a reply or is on its way to a connection, and those who want to
enter are kept out. -/
theorem settled_of_held_up (hcallers : ∀ c ∈ l.pool.callers, c.phase.reply? = none)
    (hhands : ∀ hand ∈ l.hands, onItsWay hand = false)
    (henter : l.isGuarded = true ∨ l.pool.Quiet) : l.Settled := by
  have hhand {i : Nat} {hand : Hand} (hi : l.hands[i]? = some hand) : onItsWay hand = false :=
    hhands hand (List.mem_of_getElem? hi)
  intro label hdue
  rcases hs : l.step label with _ | l'
  · rfl
  cases label with
  | ask | execute | finish => cases hdue
  | pool label =>
    cases label with
    | arrive | wake | pass | cancel => cases hdue
    | enter id =>
      simp only [step, stepPool] at hs
      split at hs
      · cases hs
      · rename_i hfree
        obtain ⟨pool, hp, -⟩ := Option.map_eq_some_iff.1 hs
        obtain ⟨c, hc, hentering, -⟩ := Machine.step_enter hp
        have hstill := (henter.resolve_left hfree) c (Machine.mem_of_find? hc)
        rw [hentering] at hstill
        cases hstill
    | signal id woken =>
      obtain ⟨-, pool, hp, -⟩ := step_pool hs
      obtain ⟨c, reply, hc, hsignalled⟩ := Machine.step_signal hp
      have hreply := hcallers c (Machine.mem_of_find? hc)
      cases hsignalled with
      | nobody hphase | all hphase | unheard hphase _ | one hphase _ _ =>
        rw [hphase] at hreply
        cases hreply
  | receive id =>
    simp only [step, receive, Option.bind_eq_bind, Option.bind_eq_some_iff] at hs
    obtain ⟨c, hc, reply, hr, -⟩ := hs
    have hreply := hcallers c (Machine.mem_of_find? hc)
    simp only [Machine.reply?, hc, Option.bind_eq_bind, Option.bind_some] at hr
    split at hr
    · rename_i hphase
      rw [hphase] at hreply
      cases hreply
    · cases hr
  | openUp i =>
    simp only [step, openUp] at hs
    split at hs
    · cases hhand ‹_›
    · cases hs
  | setUp i succeeded =>
    simp only [step, setUp] at hs
    split at hs
    · cases hhand ‹_›
    · cases hhand ‹_›
    · cases hs

end Lending

/-- The only connection is given back, another user comes before the one that is woken for it, and
that one waits again. -/
theorem busy_of_settled_overtaken :
    ∃ labels l c, (Lending.new (E := Store.engine) {} .memory 4).run labels = some l ∧
      l.Settled ∧ l.pool.callers = [c] ∧ c.call = .reserve ∧ c.phase = .waiting () ∧
      l.pool.state.idle = [] ∧ l.pool.state.created = 1 := by
  obtain ⟨labels, l, c, run, hcallers, hhands, hphase⟩ : ∃ labels l c,
      (Lending.new (E := Store.engine) {} .memory 4).run labels = some l ∧
        l.pool.callers = [c] ∧ l.hands = [.ready 0] ∧ c.phase = .waiting () :=
    ⟨[.ask .never, .pool (.enter 0), .receive 0, .openUp 0, .setUp 0 true, .ask .never,
      .pool (.enter 1), .finish 0, .pool (.enter 2), .ask .never, .pool (.enter 3),
      .pool (.signal 2 (some 1)), .receive 3, .setUp 0 true, .pool (.enter 1), .receive 2], _, _,
      rfl, rfl, rfl, rfl⟩
  have settled : l.Settled := Lending.settled_of_held_up (by simp [hcallers, hphase, Phase.reply?])
    (by simp [hhands, Lending.onItsWay])
    (.inr (by simp [Machine.Quiet, hcallers, hphase, Phase.isStill]))
  obtain ⟨hcall, -, hidle, hcreated⟩ := (busy_of_settled (by decide) run settled).1
    (by simp [hhands]) c (by simp [hcallers]) (by rw [hphase]; rfl)
  exact ⟨labels, l, c, run, settled, hcallers, hcall, hphase, hidle, hcreated⟩

/-- Two connections are free when a user that is given one of them cannot set it up.  Another user
is held up from then on although the other connection is free. -/
theorem idle_beside_stuck_user :
    ∃ labels l c, (Lending.new (E := Store.engine) {} (.file "f") 2).run labels = some l ∧
      l.Settled ∧ l.hands = [.stuck 1] ∧ l.pool.callers = [c] ∧ c.call = .reserve ∧
      c.phase.reply? = none ∧ l.pool.state.idle = [0] ∧ l.pool.state.created = 2 := by
  obtain ⟨labels, l, c, run, hcallers, hhands, hphase, hrest⟩ : ∃ labels l c,
      (Lending.new (E := Store.engine) {} (.file "f") 2).run labels = some l ∧
        l.pool.callers = [c] ∧ l.hands = [.stuck 1] ∧ c.phase = .entering ∧ c.call = .reserve ∧
        l.pool.state.idle = [0] ∧ l.pool.state.created = 2 :=
    ⟨[.ask .never, .pool (.enter 0), .receive 0, .openUp 0, .setUp 0 true, .ask .never,
      .pool (.enter 1), .receive 1, .openUp 1, .setUp 1 true, .finish 0, .pool (.enter 2),
      .pool (.signal 2 none), .receive 2, .finish 0, .pool (.enter 3), .pool (.signal 3 none),
      .receive 3, .ask .never, .pool (.enter 4), .receive 4, .setUp 0 false, .ask .never], _, _,
      rfl, rfl, rfl, rfl, rfl, rfl, rfl⟩
  have settled : l.Settled := Lending.settled_of_held_up (by simp [hcallers, hphase, Phase.reply?])
    (by simp [hhands, Lending.onItsWay]) (.inl (by simp [Lending.isGuarded, hhands, Hand.guards]))
  exact ⟨labels, l, c, run, settled, hhands, hcallers, hrest.1, by rw [hphase]; rfl, hrest.2⟩

end ScriptHost.Database
