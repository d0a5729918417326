import ScriptHost.Proofs.Monitor.Run

/-!
# What callers are about to do

A caller waits, or has a signal to send, because of an attempt of its call: the phases of a machine
are *grounded* in the attempts of its protocol.  `Machine.Entered` lists what can become of a caller
that enters, as `Machine.Signalled` does for one that sends its signal.  A machine is *quiet* when
all that could happen is that time passes, that callers wake by themselves or that new ones come.

* `Ledger.quiet_of_halted` — a machine in which nobody can go on is quiet.
* `Machine.Grounded.step`, `Run.grounded` — every state of a run is grounded.
* `Machine.Grounded.blocked` — so a caller that waits has been held up by its call.
-/

set_option autoImplicit false

namespace ScriptHost.Monitor

variable {P : Protocol}

/-- The caller is neither about to enter nor to send a signal. -/
def Phase.isStill : Phase P → Bool
  | .waiting _ | .finished _ => true
  | .entering | .signalling _ _ => false

/-- Nobody is about to enter, and no signal is outstanding. -/
def Machine.Quiet (m : Machine P) : Prop := ∀ c ∈ m.callers, c.phase.isStill = true

instance (m : Machine P) : Decidable m.Quiet :=
  inferInstanceAs (Decidable (∀ c ∈ m.callers, _))

/-- A caller is found by its number. -/
theorem Ledger.find?_of_mem {events : List (Event P)} {m : Machine P} (l : Ledger events m)
    {c : Caller P} (hc : c ∈ m.callers) : m.find? c.id = some c := by
  rcases hf : m.find? c.id with _ | c'
  · exact absurd (decide_eq_true rfl) (List.find?_eq_none.1 hf c hc)
  · rw [l.eq_of_id_eq (Machine.mem_of_find? hf) hc (Machine.id_of_find? hf)]

/-- A machine in which nobody can enter or send a signal is quiet. -/
theorem Ledger.quiet_of_halted [DecidableEq P.Cond] {events : List (Event P)} {m : Machine P}
    (l : Ledger events m) (henter : ∀ id, m.step (.enter id) = none)
    (hsignal : ∀ id woken, m.step (.signal id woken) = none) : m.Quiet := by
  intro c hc
  have hfind := l.find?_of_mem hc
  have henter := henter c.id
  have hsignal := hsignal c.id
  simp only [Machine.step, hfind, Option.bind_eq_bind, Option.bind_some] at henter hsignal
  cases hp : c.phase with
  | waiting | finished => rfl
  | entering =>
    rw [hp] at henter
    cases henter
  | signalling signal reply =>
    simp only [hp] at hsignal
    cases signal with
    | nobody | all => cases hsignal none
    | one on =>
      by_cases hwaits : m.callers.any (Machine.waitsOn on) = true
      · obtain ⟨w, hw, hon⟩ := List.any_eq_true.1 hwaits
        have hwoken := hsignal (some w.id)
        simp only [l.find?_of_mem hw, Option.bind_some, hon, if_true] at hwoken
        cases hwoken
      · have hunheard := hsignal none
        simp only [hwaits, if_false, Bool.false_eq_true] at hunheard
        cases hunheard

/-- What a caller waits for, or is to tell others, comes from an attempt of its call. -/
def Caller.Grounded (c : Caller P) : Prop :=
  match c.phase with
  | .waiting on => ∃ s, P.attempt c.call s = .blocked on
  | .signalling signal reply => ∃ s s', P.attempt c.call s = .done s' reply signal
  | .entering | .finished _ => True

/-- What every caller waits for, or is to tell others, comes from an attempt of its call. -/
def Machine.Grounded (m : Machine P) : Prop := ∀ c ∈ m.callers, c.Grounded

/-- Setting the phase of a caller leaves all others as they are. -/
theorem Ledger.setPhase_perm {events : List (Event P)} {m : Machine P} (l : Ledger events m)
    {c : Caller P} (hc : c ∈ m.callers) (phase : Phase P) :
    ∃ others, m.callers.Perm (c :: others) ∧
      (m.setPhase c.id phase).callers.Perm ({ c with phase } :: others) := by
  obtain ⟨before, behind, hm, hs⟩ := l.setPhase_callers hc phase
  exact ⟨before ++ behind, hm ▸ List.perm_middle, hs ▸ List.perm_middle⟩

/-- What becomes of a caller that enters: it gives up or waits, or its call does its work and it has
a signal to send, or none. -/
inductive Machine.Entered (m : Machine P) (c : Caller P) : Machine P → Prop
  | leaves {on : P.Cond} (ha : P.attempt c.call m.state = .blocked on) :
      Entered m c (m.setPhase c.id (.finished (P.giveUp c.call)))
  | waits {on : P.Cond} (ha : P.attempt c.call m.state = .blocked on) :
      Entered m c (m.setPhase c.id (.waiting on))
  | finishes {s : P.State} {reply : P.Reply}
    (ha : P.attempt c.call m.state = .done s reply .nobody) :
      Entered m c (({ m with state := s }).setPhase c.id (.finished reply))
  | signals {s : P.State} {reply : P.Reply} {signal : Signal P.Cond}
      (ha : P.attempt c.call m.state = .done s reply signal) :
      Entered m c (({ m with state := s }).setPhase c.id (.signalling signal reply))

theorem Machine.entered (m : Machine P) (c : Caller P) : m.Entered c (m.enter c) := by
  cases ha : P.attempt c.call m.state with
  | blocked on =>
    simp only [enter, ha]
    split
    · exact .leaves ha
    · exact .waits ha
  | done s reply signal =>
    cases signal with
    | nobody =>
      simp only [enter, ha]
      exact .finishes ha
    | one on | all on =>
      simp only [enter, ha]
      exact .signals ha

namespace Machine.Grounded

variable {events : List (Event P)} {m m' : Machine P} {c : Caller P}

theorem setPhase (l : Ledger events m) (h : m.Grounded) (hc : c ∈ m.callers) (phase : Phase P)
    (hphase : ({ c with phase } : Caller P).Grounded) : (m.setPhase c.id phase).Grounded := by
  obtain ⟨others, hm, hs⟩ := l.setPhase_perm hc phase
  intro x hx
  rcases List.mem_cons.1 (hs.mem_iff.1 hx) with rfl | hx
  · exact hphase
  · exact h x (hm.mem_iff.2 (List.mem_cons_of_mem _ hx))

theorem arrive (h : m.Grounded) (call : P.Call) (deadline : Deadline) :
    Machine.Grounded { m with
      callers := m.callers ++ [⟨m.nextId, call, deadline, .entering⟩]
      nextId := m.nextId + 1 } := by
  intro c hc
  rcases List.mem_append.1 hc with hc | hc
  · exact h c hc
  · rw [List.mem_singleton.1 hc]
    trivial

theorem enter (l : Ledger events m) (h : m.Grounded) (hc : c ∈ m.callers) (he : m.Entered c m') :
    m'.Grounded := by
  cases he with
  | leaves => exact h.setPhase l hc _ trivial
  | waits ha => exact h.setPhase l hc _ ⟨_, ha⟩
  | @finishes s reply => exact h.setPhase l hc (.finished reply) trivial
  | @signals s reply signal ha => exact h.setPhase l hc (.signalling signal reply) ⟨_, _, ha⟩

/-- A caller that waits has been held up. -/
theorem blocked (h : m.Grounded) (hc : c ∈ m.callers) {on : P.Cond} (hp : c.phase = .waiting on) :
    ∃ s, P.attempt c.call s = .blocked on := by
  have hg := h c hc
  rwa [Caller.Grounded, hp] at hg

/-- A caller that has a signal to send has done its work. -/
theorem done (h : m.Grounded) (hc : c ∈ m.callers) {signal : Signal P.Cond} {reply : P.Reply}
    (hp : c.phase = .signalling signal reply) :
    ∃ s s', P.attempt c.call s = .done s' reply signal := by
  have hg := h c hc
  rwa [Caller.Grounded, hp] at hg

variable [DecidableEq P.Cond]

theorem wakeAll (h : m.Grounded) (on : P.Cond) : (m.wakeAll on).Grounded := by
  intro x hx
  obtain ⟨y, hy, rfl⟩ := List.mem_map.1 hx
  split
  · trivial
  · exact h y hy

theorem signal (l : Ledger events m) (h : m.Grounded) (hc : c ∈ m.callers) {reply : P.Reply}
    (hs : m.Signalled c reply m') : m'.Grounded := by
  cases hs with
  | nobody | unheard => exact h.setPhase l hc _ trivial
  | all hp => exact (h.wakeAll _).setPhase (l.wakeAll _) (Ledger.still_signals hc hp _) _ trivial
  | one hp hmem hwaits =>
    exact (h.setPhase l hc (.finished reply) trivial).setPhase (l.keep hc (by rw [hp]; rfl))
      (l.still_waits hc hp hmem hwaits _) .entering trivial

theorem step (l : Ledger events m) (h : m.Grounded) {label : Machine.Label P}
    (hs : m.step label = some m') : m'.Grounded := by
  cases label with
  | arrive call deadline => exact Option.some_inj.1 hs ▸ h.arrive call deadline
  | pass ms => exact Option.some_inj.1 hs ▸ h
  | cancel token => exact Option.some_inj.1 hs ▸ h
  | enter id =>
    obtain ⟨c, hc, hp, rfl⟩ := Machine.step_enter hs
    exact h.enter l (Machine.mem_of_find? hc) (m.entered c)
  | signal id woken =>
    obtain ⟨c, reply, hc, hs⟩ := Machine.step_signal hs
    exact h.signal l (Machine.mem_of_find? hc) hs
  | wake id =>
    obtain ⟨c, on, hc, hp, rfl⟩ := Machine.step_wake hs
    exact h.setPhase l (Machine.mem_of_find? hc) .entering trivial

end Machine.Grounded

theorem Run.grounded [DecidableEq P.Cond] {start m : Machine P} {events : List (Event P)}
    (run : Run start events m) (none : start.callers = []) : m.Grounded := by
  induction run with
  | start => exact fun c hc => by simp [none] at hc
  | step label run h ih => exact ih.step (run.ledger none) h

end ScriptHost.Monitor
