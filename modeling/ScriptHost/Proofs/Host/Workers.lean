import ScriptHost.Proofs.Host.Run

/-!
# The workers of a host

A host has a number of workers that never changes.  An invocation takes one, and it keeps it until
its handler has come to an end, whatever becomes of the invocation in the eyes of its caller.

* `Host.Event.takes`, `Host.Event.givesBack` — the steps at which the number of free workers
  changes.
* `Host.Stands` — how often an invocation has done either, and how that goes with its work.
* `Host.Releases` — a worker that has become idle comes back without help from others.
* `Host.workers_of_run` — the law for every run.
-/

set_option autoImplicit false

namespace ScriptHost.Host

open RoutePattern (dialect)

variable {R : Regex} {ε : Type} {h₀ h h' : Host R ε} {events : List (Event R ε)}
  {i i' : Invocation ε}

/-! ## Taking workers and giving them back -/

/-- The step is one of a running handler. -/
def Label.isAct : Label → Bool
  | .act _ => true
  | _ => false

namespace Event

/-- One worker less is free after a step of the invocation. -/
def takes (id : Nat) : Event R ε → Bool
  | .stepped label before after => label.id? = some id && after.free < before.free
  | _ => false

/-- One worker more is free after a step of the invocation. -/
def givesBack (id : Nat) : Event R ε → Bool
  | .stepped label before after => label.id? = some id && before.free < after.free
  | _ => false

/-- The handler of the invocation returns or crashes. -/
def ends (id : Nat) : Event R ε → Bool
  | .stepped label before _ =>
    label.id? = some id && label.isAct && before.holds id (·.work.isEnding)
  | _ => false

theorem takes_eq_false {e : Event R ε} {id : Nat} (he : e.id? ≠ some id) : e.takes id = false := by
  cases e with
  | submitted => rfl
  | stepped label before after => simp [takes, show label.id? ≠ some id from he]

theorem givesBack_eq_false {e : Event R ε} {id : Nat} (he : e.id? ≠ some id) :
    e.givesBack id = false := by
  cases e with
  | submitted => rfl
  | stepped label before after => simp [givesBack, show label.id? ≠ some id from he]

theorem ends_eq_false {e : Event R ε} {id : Nat} (he : e.id? ≠ some id) : e.ends id = false := by
  cases e with
  | submitted => rfl
  | stepped label before after => simp [ends, show label.id? ≠ some id from he]

end Event

/-- How often an invocation has taken a worker. -/
def taken (id : Nat) (events : List (Event R ε)) : Nat := events.countP (·.takes id)

/-- How often it has given one back. -/
def givenBack (id : Nat) (events : List (Event R ε)) : Nat := events.countP (·.givesBack id)

/-- Its handler has returned or crashed. -/
def hasEnded (id : Nat) (events : List (Event R ε)) : Bool := events.any (·.ends id)

theorem taken_concat (id : Nat) (events : List (Event R ε)) (e : Event R ε) :
    taken id (events ++ [e]) = taken id events + if e.takes id then 1 else 0 := by
  rw [taken, List.countP_append, List.countP_singleton, taken]

theorem givenBack_concat (id : Nat) (events : List (Event R ε)) (e : Event R ε) :
    givenBack id (events ++ [e]) = givenBack id events + if e.givesBack id then 1 else 0 := by
  rw [givenBack, List.countP_append, List.countP_singleton, givenBack]

theorem hasEnded_concat (id : Nat) (events : List (Event R ε)) (e : Event R ε) :
    hasEnded id (events ++ [e]) = (hasEnded id events || e.ends id) := by
  simp [hasEnded]

/-! ## How an invocation stands -/

/-- How the course of an invocation goes with its work. -/
def Course (ended : Bool) (i : Invocation ε) : Prop :=
  match i.work with
  | .queued | .inLine | .assigned =>
    ended = false ∧ i.state = .queued ∧ i.verdict = none ∧ i.timer = none
  | .returned _ | .judged _ _ => ended = true
  -- an invocation that is turned away has its verdict from the start
  | .over _ => ended = true ∨ i.state = .failed ∧ i.verdict.isSome = true
  | _ => ended = false

/-- How often an invocation has taken a worker and given it back, and how far its handler has
come. -/
structure Stands (events : List (Event R ε)) (i : Invocation ε) : Prop where
  taken : taken i.id events = if i.work.stage = .ahead then 0 else 1
  givenBack : givenBack i.id events = if i.work.stage = .over then 1 else 0
  course : Course (hasEnded i.id events) i

/-- A step of the invocation itself. -/
theorem Turn.takes {label : Label} (turn : Turn h label i i' h') :
    (Event.stepped label h h').takes i.id = decide (h'.free < h.free) := by
  rw [Event.takes, turn.becomes.id?_eq]
  simp

theorem Turn.givesBack {label : Label} (turn : Turn h label i i' h') :
    (Event.stepped label h h').givesBack i.id = decide (h.free < h'.free) := by
  rw [Event.givesBack, turn.becomes.id?_eq]
  simp

theorem Turn.ends {label : Label} (turn : Turn h label i i' h') :
    (Event.stepped label h h').ends i.id = (label.isAct && i.work.isEnding) := by
  rw [Event.ends, turn.becomes.id?_eq, holds, turn.found]
  simp

theorem course_of_becomes {label : Label} {free : Nat} {ended : Bool}
    (hb : Becomes h label i i' free)
    (hcourse : Course ended i) : Course (ended || (label.isAct && i.work.isEnding)) i' := by
  rw [Course] at hcourse
  cases hb with
  | enqueued hwork | assigned hwork =>
    rw [hwork] at hcourse
    obtain ⟨rfl, hstart⟩ := hcourse
    exact ⟨rfl, hstart⟩
  | turnedAway hwork =>
    exact .inr ⟨rfl, rfl⟩
  | started hwork =>
    rw [hwork] at hcourse
    obtain ⟨rfl, -⟩ := hcourse
    exact (rfl : false = false)
  | @wentOn _ w hrunning hending hw =>
    -- whoever is running has not given its worker back, before the step and after it
    have hended : ended = false := by
      cases hwork : i.work <;> rw [hwork] at hrunning hcourse <;>
        first | exact hcourse | cases hrunning
    rw [hending, Bool.and_false, Bool.or_false, hended]
    cases w <;> first | rfl | cases hw
  | called hwork =>
    rw [hwork] at hcourse ⊢
    obtain rfl := hcourse
    exact (rfl : false = false)
  | returned hwork =>
    rw [hwork]
    exact Bool.or_true _
  | crashed hwork =>
    rw [hwork]
    exact .inl (Bool.or_true _)
  | judged hwork =>
    rw [hwork] at hcourse
    obtain rfl := hcourse
    exact (rfl : true = true)
  | answered hwork =>
    rw [hwork] at hcourse
    obtain rfl := hcourse
    exact .inl rfl
  | concluded hverdict hwork =>
    rw [hwork] at hcourse
    rw [Course, Invocation.conclude, hwork]
    rcases hcourse with rfl | ⟨-, hsome⟩
    · exact .inl rfl
    · rw [hverdict] at hsome
      cases hsome
  | expired hverdict htimer =>
    rw [show (Label.expire i.id).isAct = false from rfl, Bool.false_and, Bool.or_false, Course,
      Invocation.conclude]
    dsimp only
    cases hwork : i.work with
    | queued | inLine | assigned =>
      -- the timer is not running yet
      rw [hwork] at hcourse
      rw [hcourse.2.2.2] at htimer
      cases htimer
    | «over» verdict =>
      rw [hwork] at hcourse
      rcases hcourse with hended | ⟨-, hsome⟩
      · exact .inl hended
      · rw [hverdict] at hsome
        cases hsome
    | _ =>
      rw [hwork] at hcourse
      exact hcourse
  | cancelled =>
    rw [show (Label.cancel i.id).isAct = false from rfl, Bool.false_and, Bool.or_false]
    exact hcourse

theorem Stands.turn {label : Label} (turn : Turn h label i i' h') (hi : Stands events i) :
    Stands (events ++ [.stepped label h h']) i' := by
  have hid := turn.becomes.id_eq
  refine ⟨?_, ?_, ?_⟩
  · rw [hid, taken_concat, turn.takes, hi.taken]
    rcases turn.becomes.shift with ⟨hfree, hstage⟩ | ⟨hfree, hahead, hbusy⟩ | ⟨hfree, hbusy, hover⟩
    · simp [hfree, hstage]
    · simp [← hfree, hahead, hbusy]
    · simp [hfree, hbusy, hover]
  · rw [hid, givenBack_concat, turn.givesBack, hi.givenBack]
    rcases turn.becomes.shift with ⟨hfree, hstage⟩ | ⟨hfree, hahead, hbusy⟩ | ⟨hfree, hbusy, hover⟩
    · simp [hfree, hstage]
    · simp [← hfree, hahead, hbusy]
    · simp [hfree, hbusy, hover]
  · rw [hid, hasEnded_concat, turn.ends]
    exact course_of_becomes turn.becomes hi.course

theorem stands_of_run (hnew : New h₀) (run : Run h₀ events h) :
    ∀ i ∈ h.invocations, Stands events i := by
  refine run.each hnew Stands ?_ (fun _ turn hi => hi.turn turn) ?_ ?_
  · intro events h route handler head transport _ hfresh
    have htaken : taken (h.requests + 1) events = 0 :=
      List.countP_eq_zero.2 fun e he => by rw [Event.takes_eq_false (hfresh e he)]; decide
    have hgiven : givenBack (h.requests + 1) events = 0 :=
      List.countP_eq_zero.2 fun e he => by rw [Event.givesBack_eq_false (hfresh e he)]; decide
    have hended : hasEnded (h.requests + 1) events = false :=
      List.any_eq_false.2 fun e he => by rw [Event.ends_eq_false (hfresh e he)]; decide
    refine ⟨?_, ?_, ?_⟩
    · exact (taken_concat ..).trans (congrArg (· + 0) htaken)
    · exact (givenBack_concat ..).trans (congrArg (· + 0) hgiven)
    · exact ⟨(hasEnded_concat ..).trans (congrArg (· || false) hended), rfl, rfl, rfl⟩
  · intro events e i he hi
    refine ⟨?_, ?_, ?_⟩
    · rw [taken_concat, Event.takes_eq_false he, hi.taken]
      rfl
    · rw [givenBack_concat, Event.givesBack_eq_false he, hi.givenBack]
      rfl
    · rw [hasEnded_concat, Event.ends_eq_false he, Bool.or_false]
      exact hi.course
  · intro events i x _ hi
    exact ⟨hi.taken, hi.givenBack, hi.course⟩

/-! ## The number of workers -/

/-- The workers that are free and those that are at work are all there are. -/
theorem free_add_busy (hnew : New h₀) (run : Run h₀ events h) :
    h.free + h.invocations.countP (·.isBusy) = h₀.free := by
  induction run with
  | start => simp [hnew.invocations]
  | submit run hsubmit ih =>
    obtain ⟨rfl, handler, -, rfl⟩ := submit_eq_ok hsubmit
    rw [List.countP_append]
    exact ih
  | step run hstep ih =>
    rcases turn_of_step hstep with ⟨ms, rfl, rfl⟩ | ⟨i, i', turn⟩
    · exact ih
    · have hfound := turn.found
      have hcount := countP_set (run.sound hnew).nodup (turn.becomes.id_eq ▸ turn.found) (·.isBusy)
      rw [turn.invocations, ← ih]
      simp only [isBusy_eq] at hcount ⊢
      rcases turn.becomes.shift with ⟨hfree, hstage⟩ | ⟨hfree, hahead, hbusy⟩ |
        ⟨hfree, hbusy, hover⟩
      · simp [hstage] at hcount
        omega
      · simp [hahead, hbusy] at hcount
        omega
      · simp [hover, hbusy] at hcount
        omega
  | meanwhile run hmeanwhile ih =>
    obtain ⟨exchange, hinvocations, -⟩ := hmeanwhile.invocations
    rw [hmeanwhile.free, hinvocations, List.countP_map]
    exact ih

/-! ## Idle workers -/

/-- The invocation gives its worker back by steps of its own. -/
inductive Releases (id : Nat) : Host R ε → Prop
  | now {h h' : Host R ε} {label : Label} : label.id? = some id → h.step label = some h' →
      h.free < h'.free → Releases id h
  | later {h h' : Host R ε} {label : Label} : label.id? = some id → h.step label = some h' →
      Releases id h' → Releases id h

theorem releases_of_cancelled (hi : h.find? i.id = some i) (hwork : i.work = .assigned)
    (hcancelled : h.clock.isCancelled i.token = true) : Releases i.id h := by
  have hstart : ∃ h', h.start i = some h' ∧ h'.free = h.free + 1 := by
    rw [start, hwork]
    dsimp only
    rw [if_pos hcancelled]
    exact ⟨_, rfl, rfl⟩
  obtain ⟨h', hstart, hfree⟩ := hstart
  have hstep : h.step (.start i.id) = some h' := Option.bind_eq_some_iff.2 ⟨i, hi, hstart⟩
  exact .now rfl hstep (by omega)

theorem releases_of_judged {r : Outcome Value} {expired : Bool} (hi : h.find? i.id = some i)
    (hwork : i.work = .judged r expired) : Releases i.id h := by
  have hanswer : ∃ h', h.answer i = some h' ∧ h'.free = h.free + 1 := by
    rw [answer, hwork]
    exact ⟨_, rfl, rfl⟩
  obtain ⟨h', hanswer, hfree⟩ := hanswer
  have hstep : h.step (.answer i.id) = some h' := Option.bind_eq_some_iff.2 ⟨i, hi, hanswer⟩
  exact .now rfl hstep (by omega)

theorem releases_of_returned {r : Outcome Value} (hi : h.find? i.id = some i)
    (hwork : i.work = .returned r) : Releases i.id h := by
  let i' : Invocation ε :=
    { i with work := .judged r (i.exchange.context.deadline.isExpired h.clock) }
  have hjudge : h.judge i = some (h.set i') := by rw [judge, hwork]
  have hstep : h.step (.judge i.id) = some (h.set i') := Option.bind_eq_some_iff.2 ⟨i, hi, hjudge⟩
  have hfound : (h.set i').find? i'.id = some i' := by
    rw [find?_set, hi]
    exact congrArg some (if_pos rfl)
  have hreleases : Releases i'.id (h.set i') := releases_of_judged hfound rfl
  exact .later rfl hstep hreleases

/-- An invocation that is busy although its handler has come to an end. -/
theorem releases_of_ended (hi : h.find? i.id = some i) (hcourse : Course true i)
    (hbusy : i.isBusy = true) : Releases i.id h := by
  rw [Course] at hcourse
  rw [isBusy_eq] at hbusy
  cases hwork : i.work with
  | returned r => exact releases_of_returned hi hwork
  | judged r expired => exact releases_of_judged hi hwork
  | queued | inLine | «over» _ =>
    rw [hwork] at hbusy
    cases hbusy
  | assigned =>
    rw [hwork] at hcourse
    cases hcourse.1
  | _ =>
    rw [hwork] at hcourse
    cases hcourse

/-- An invocation whose time has run out before its handler has come to an end. -/
theorem isBusy_of_timedOut (hcourse : Course false i) (hstate : i.state = .timedOut) :
    i.isBusy = true := by
  rw [Course, hstate] at hcourse
  rw [isBusy_eq]
  cases hwork : i.work with
  | queued | inLine =>
    rw [hwork] at hcourse
    cases hcourse.2.1
  | «over» verdict =>
    rw [hwork] at hcourse
    rcases hcourse with hended | ⟨hfailed, -⟩
    · cases hended
    · cases hfailed
  | _ => rfl

/-- **Workers are neither lost nor doubled.**  After every run, the workers that are free and the
invocations that have one add up to the number of workers, of which there is at least one, so no
more handlers than that are running.  An invocation takes a worker at most once and gives it back
at most once, and has it in between; one whose time has run out has it until its handler has
returned or crashed, and from then on nobody but itself is needed to give it back. -/
theorem workers_of_run {config : HostConfig} {reachable : Database.Target → Bool}
    (hbuilt : ofConfig config reachable = .ok h₀) {handlers : Record (Handler ε)}
    (run : Run { h₀ with handlers } events h) :
    h.free + h.invocations.countP (·.isBusy) = max config.workers 1 ∧
      h.invocations.countP (·.work.isRunning) ≤ max config.workers 1 ∧
      ∀ i ∈ h.invocations,
        taken i.id events = givenBack i.id events + (if i.isBusy then 1 else 0) ∧
        taken i.id events ≤ 1 ∧
        (i.state = .timedOut → hasEnded i.id events = false → i.isBusy = true) ∧
        (i.isBusy = true → hasEnded i.id events = true ∨
          i.work = .assigned ∧ h.clock.isCancelled i.token = true → Releases i.id h) := by
  obtain ⟨hnew, rfl⟩ := new_of_ofConfig hbuilt handlers
  have hall : h.free + h.invocations.countP (·.isBusy) = max h₀.config.workers 1 :=
    (free_add_busy hnew run).trans hnew.free
  refine ⟨hall, ?_, fun i hi => ?_⟩
  · have hle : h.invocations.countP (·.work.isRunning) ≤ h.invocations.countP (·.isBusy) :=
      List.countP_mono_left fun i _ hrunning => by
        rw [isBusy_eq, Work.stage_of_isRunning hrunning]
        rfl
    omega
  · obtain ⟨htaken, hgiven, hcourse⟩ := stands_of_run hnew run i hi
    have hfound := find?_of_mem (run.sound hnew).nodup hi
    refine ⟨?_, ?_, fun hstate hended => ?_, ?_⟩
    · rw [htaken, hgiven, isBusy_eq]
      cases i.work.stage <;> rfl
    · rw [htaken]
      split <;> omega
    · rw [hended] at hcourse
      exact isBusy_of_timedOut hcourse hstate
    · rintro hbusy (hended | ⟨hwork, hcancelled⟩)
      · rw [hended] at hcourse
        exact releases_of_ended hfound hcourse hbusy
      · exact releases_of_cancelled hfound hwork hcancelled

/-- Zero workers are one: while the handler of the first invocation sleeps on after its time has run
out, the second one stays in line. -/
theorem workers_of_run_timed_out :
    ∃ (h₀ h : Host dialect Unit) (events : List (Event dialect Unit))
      (handlers : Record (Handler Unit)),
      ofConfig { workers := 0, serviceTimeoutMs := 10 } (fun _ => false) = .ok h₀ ∧
        Run { h₀ with handlers } events h ∧
        h.invocations.map (·.state) = [.timedOut, .queued] ∧
        h.free + h.invocations.countP (·.isBusy) = 1 ∧ h.free = 0 := by
  let config : HostConfig := { workers := 0, serviceTimeoutMs := 10 }
  let h₀ : Host dialect Unit := { config, registry := { reachable := fun _ => false }, free := 1 }
  have hbuilt : ofConfig config (fun _ => false) = .ok h₀ := rfl
  obtain ⟨events, h, run, hstates, hfree⟩ := Run.exists_of_play
    { h₀ with handlers := [("slow", .sleep 100 (.done (.ok .null)))] }
    [.submit "slow" (.new "GET" "/") {}, .submit "slow" (.new "GET" "/") {},
      .step (.enqueue 1), .step (.enqueue 2), .step (.assign 1), .step (.start 1), .step (.act 1),
      .step (.pass 10), .step (.expire 1)]
    (fun _ h => h.invocations.map (·.state) = [.timedOut, .queued] ∧ h.free = 0) (by decide +kernel)
  exact ⟨h₀, h, events, _, hbuilt, run, hstates, (workers_of_run hbuilt run).1, hfree⟩

end ScriptHost.Host
