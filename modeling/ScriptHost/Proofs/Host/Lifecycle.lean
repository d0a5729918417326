import ScriptHost.Proofs.Host.Run
import Mathlib.Data.List.Chain

/-!
# What the caller of an invocation sees

An invocation is queued at first.  It is turned away if it has been cancelled by the time it gets a
worker, and otherwise it is running until it gets its verdict.  Nothing happens to what its caller
sees after that, whatever its handler still does.

* `InvocationState.Next`, `Verdict.Proper` — what may be seen next, and what there is in a verdict.
* `Host.seen`, `Host.outcomes` — the states that the events of an invocation have left it in, and
  the verdicts that they have given.
* `Host.Coherent` — what a caller sees goes with the work of the invocation.
* `Host.Withdrawn` — an invocation that has been cancelled early never runs.
* `Host.lifecycle_of_run` — the law for every run.
-/

set_option autoImplicit false

namespace ScriptHost

/-! ## States and verdicts -/

/-- What a caller may see next; an invocation that is finished stays as it is. -/
inductive InvocationState.Next : InvocationState → InvocationState → Prop
  | same (s : InvocationState) : Next s s
  | turnedAway : Next .queued .failed
  | started : Next .queued .running
  | finished {s : InvocationState} : s.isFinished = true → Next .running s

namespace Verdict

/-- There is a value in the verdict on an invocation that is completed, and a failure in any
other. -/
structure Proper (v : Verdict) : Prop where
  finished : v.state.isFinished = true
  value : v.value.isSome = true ↔ v.state = .completed
  error : v.error.isSome = true ↔ v.state ≠ .completed

theorem proper_fail (e : Failure) : (fail e).Proper := ⟨rfl, by simp [fail], by simp [fail]⟩

theorem proper_timeOut (e : Failure) : (timeOut e).Proper :=
  ⟨rfl, by simp [timeOut], by simp [timeOut]⟩

theorem proper_ofReturn (r : Outcome Value) (expired clientCancelled : Bool) :
    (ofReturn r expired clientCancelled).Proper := by
  rw [ofReturn.eq_def]
  split
  · exact ⟨rfl, by simp, by simp⟩
  all_goals first | exact proper_fail _ | exact proper_timeOut _

end Verdict

/-- The handler has got its turn, or will never get it. -/
def Work.hasBegun {ε : Type} : Work ε → Bool
  | .queued | .inLine | .assigned => false
  | _ => true

namespace Host

open RoutePattern (dialect)

variable {R : Regex} {ε : Type} {h₀ h h' : Host R ε} {events : List (Event R ε)}
  {i i' : Invocation ε}
  {label : Label} {free : Nat}

/-! ## Seeing what happens -/

/-- The step may give a verdict. -/
def Label.decides : Label → Bool
  | .start _ | .conclude _ | .expire _ => true
  | _ => false

namespace Event

/-- The state that an event of the invocation leaves it in. -/
def shows (id : Nat) : Event R ε → Option InvocationState
  | .submitted n _ => if n = id then some .queued else none
  | .stepped label _ after => if label.id? = some id then (after.find? id).map (·.state) else none

/-- The verdict that an event gives on the invocation. -/
def outcome? (id : Nat) : Event R ε → Option Verdict
  | .submitted _ _ => none
  | .stepped label _ after =>
    if label.id? = some id && label.decides then (after.find? id).bind (·.verdict) else none

theorem shows_eq_none {e : Event R ε} {id : Nat} (he : e.id? ≠ some id) : e.shows id = none := by
  cases e with
  | submitted n => exact if_neg fun heq => he (congrArg some heq)
  | stepped label => exact if_neg he

theorem outcome?_eq_none {e : Event R ε} {id : Nat} (he : e.id? ≠ some id) :
    e.outcome? id = none := by
  cases e with
  | submitted => rfl
  | stepped label => simp [outcome?, show label.id? ≠ some id from he]

end Event

/-- What the caller of an invocation has seen. -/
def seen (id : Nat) (events : List (Event R ε)) : List InvocationState :=
  events.filterMap (·.shows id)

/-- The verdicts on an invocation. -/
def outcomes (id : Nat) (events : List (Event R ε)) : List Verdict :=
  events.filterMap (·.outcome? id)

theorem seen_concat (id : Nat) (events : List (Event R ε)) (e : Event R ε) :
    seen id (events ++ [e]) = seen id events ++ (e.shows id).toList := by
  rw [seen, List.filterMap_append, seen]
  cases h : e.shows id <;> simp [h]

theorem outcomes_concat (id : Nat) (events : List (Event R ε)) (e : Event R ε) :
    outcomes id (events ++ [e]) = outcomes id events ++ (e.outcome? id).toList := by
  rw [outcomes, List.filterMap_append, outcomes]
  cases h : e.outcome? id <;> simp [h]

/-- The invocation as its step has left it. -/
theorem Turn.find? (turn : Turn h label i i' h') : h'.find? i.id = some i' := by
  rw [Host.find?, turn.invocations, ← Host.find?, find?_set, turn.found, turn.becomes.id_eq]
  exact congrArg some (if_pos rfl)

theorem Turn.shows (turn : Turn h label i i' h') :
    (Event.stepped label h h').shows i.id = some i'.state := by
  rw [Event.shows, turn.becomes.id?_eq, turn.find?]
  exact if_pos rfl

theorem Turn.outcome? (turn : Turn h label i i' h') :
    (Event.stepped label h h').outcome? i.id = if label.decides then i'.verdict else none := by
  rw [Event.outcome?, turn.becomes.id?_eq, turn.find?]
  simp

/-! ## What is seen goes with the work -/

/-- What a caller sees of an invocation, and how far its work has come. -/
structure Coherent (i : Invocation ε) : Prop where
  waiting : i.work.hasBegun = false → i.state = .queued ∧ i.verdict = none ∧ i.timer = none
  running : i.work.hasBegun = true → i.verdict = none → i.state = .running
  verdict : ∀ v ∈ i.verdict, v.state = i.state ∧ v.Proper
  ending : ∀ verdict, i.work = .over verdict → ∀ clientCancelled, (verdict clientCancelled).Proper

theorem hasBegun_of_isRunning {w : Work ε} (hw : w.isRunning = true) : w.hasBegun = true := by
  cases w <;> first | rfl | cases hw

/-- A handler at work, and what it says in the end. -/
theorem Coherent.begun {w : Work ε} (hi : Coherent i) (hwork : i.work.hasBegun = true)
    (hw : w.hasBegun = true)
    (hending : ∀ verdict, w = .over verdict → ∀ clientCancelled, (verdict clientCancelled).Proper)
    (x : Exchange) : Coherent { i with work := w, exchange := x } where
  waiting hbegun := by rw [hw] at hbegun; cases hbegun
  running _ := hi.running hwork
  verdict := hi.verdict
  ending := hending

/-- An invocation that gets its verdict. -/
theorem Coherent.conclude {v : Verdict} (hi : Coherent i) (hv : v.Proper)
    (hwork : i.work.hasBegun = true) : Coherent (i.conclude v) where
  waiting hbegun := by rw [Invocation.conclude, hwork] at hbegun; cases hbegun
  running _ hnone := by cases hnone
  verdict w hw := by
    obtain rfl := Option.some.inj hw
    exact ⟨rfl, hv⟩
  ending := hi.ending

/-- The time for the service runs out only for what has begun. -/
theorem Coherent.hasBegun_of_timer {instant : Nat} (hi : Coherent i)
    (htimer : i.timer = some instant) : i.work.hasBegun = true := by
  cases hbegun : i.work.hasBegun with
  | true => rfl
  | false =>
    rw [(hi.waiting hbegun).2.2] at htimer
    cases htimer

theorem Becomes.coherent (hb : Becomes h label i i' free) (hi : Coherent i) : Coherent i' := by
  cases hb with
  | enqueued hwork | assigned hwork =>
    exact ⟨fun _ => hi.waiting (by rw [hwork]; rfl), nofun, hi.verdict, nofun⟩
  | turnedAway =>
    refine ⟨nofun, nofun, fun v hv => ?_, fun verdict heq _ => ?_⟩
    · obtain rfl := Option.some.inj hv
      exact ⟨rfl, Verdict.proper_fail _⟩
    · cases heq
      exact Verdict.proper_fail _
  | started hwork =>
    refine ⟨nofun, fun _ _ => rfl, fun v hv => ?_, nofun⟩
    have hnone : i.verdict = none := (hi.waiting (by rw [hwork]; rfl)).2.1
    rw [Invocation.act, hnone] at hv
    cases hv
  | wentOn hrunning _ hw =>
    exact hi.begun (hasBegun_of_isRunning hrunning) (hasBegun_of_isRunning hw)
      (fun _ heq => by rw [heq] at hw; cases hw) _
  | called hwork => exact hi.begun (by rw [hwork]; rfl) rfl (fun _ heq => by cases heq) _
  | returned hwork => exact hi.begun (by rw [hwork]; rfl) rfl (fun _ heq => by cases heq) _
  | crashed hwork =>
    refine hi.begun (by rw [hwork]; rfl) rfl (fun verdict heq _ => ?_) _
    cases heq
    exact Verdict.proper_fail _
  | judged hwork => exact hi.begun (by rw [hwork]; rfl) rfl (fun _ heq => by cases heq) _
  | answered hwork =>
    refine hi.begun (by rw [hwork]; rfl) rfl (fun verdict heq clientCancelled => ?_) _
    cases heq
    exact Verdict.proper_ofReturn ..
  | concluded _ hwork => exact hi.conclude (hi.ending _ hwork _) (by rw [hwork]; rfl)
  | expired _ htimer => exact hi.conclude (Verdict.proper_timeOut _) (hi.hasBegun_of_timer htimer)
  | cancelled => exact ⟨hi.waiting, hi.running, hi.verdict, hi.ending⟩

/-- **A step shows what may be seen next.** -/
theorem Becomes.next (hb : Becomes h label i i' free) (hi : Coherent i) :
    i.state.Next i'.state := by
  cases hb with
  | turnedAway hwork =>
    have hqueued : i.state = .queued := (hi.waiting (by rw [hwork]; rfl)).1
    exact hqueued ▸ .turnedAway
  | started hwork =>
    have hqueued : i.state = .queued := (hi.waiting (by rw [hwork]; rfl)).1
    exact hqueued ▸ .started
  | concluded hnone hwork =>
    have hrunning : i.state = .running := hi.running (by rw [hwork]; rfl) hnone
    exact hrunning ▸ .finished (hi.ending _ hwork _).finished
  | expired hnone htimer =>
    have hrunning : i.state = .running := hi.running (hi.hasBegun_of_timer htimer) hnone
    exact hrunning ▸ .finished rfl
  | _ => exact .same _

/-- A step gives a verdict only if there is none, and then it may. -/
theorem Becomes.verdict (hb : Becomes h label i i' free) (hi : Coherent i) :
    i'.verdict.toList =
      i.verdict.toList ++ (if label.decides then i'.verdict else none).toList := by
  cases hb with
  | turnedAway hwork | started hwork =>
    have hnone : i.verdict = none := (hi.waiting (by rw [hwork]; rfl)).2.1
    rw [hnone]
    rfl
  | concluded hnone | expired hnone =>
    rw [hnone]
    rfl
  | _ => exact (List.append_nil _).symm

/-! ## What has been seen -/

/-- What the caller of an invocation has seen, and what it has been told. -/
structure Shown (events : List (Event R ε)) (i : Invocation ε) : Prop where
  coherent : Coherent i
  first : (seen i.id events).head? = some .queued
  chain : (seen i.id events).IsChain InvocationState.Next
  last : (seen i.id events).getLast? = some i.state
  outcomes : outcomes i.id events = i.verdict.toList

theorem Shown.turn (turn : Turn h label i i' h') (hi : Shown events i) :
    Shown (events ++ [.stepped label h h']) i' := by
  have hid := turn.becomes.id_eq
  have hseen : seen i'.id (events ++ [.stepped label h h']) = seen i.id events ++ [i'.state] := by
    rw [hid, seen_concat, turn.shows, Option.toList_some]
  refine ⟨turn.becomes.coherent hi.coherent, ?_, ?_, ?_, ?_⟩
  · rw [hseen, List.head?_append, hi.first]
    rfl
  · rw [hseen]
    refine List.isChain_append.2 ⟨hi.chain, .singleton _, fun s hs t ht => ?_⟩
    obtain rfl := Option.some.inj (hi.last.symm.trans hs)
    obtain rfl := Option.some.inj ht
    exact turn.becomes.next hi.coherent
  · rw [hseen, List.getLast?_concat]
  · rw [hid, outcomes_concat, turn.outcome?, hi.outcomes, turn.becomes.verdict hi.coherent]

theorem shown_of_run (hnew : New h₀) (run : Run h₀ events h) :
    ∀ i ∈ h.invocations, Shown events i := by
  refine run.each hnew Shown ?_ (fun _ turn hi => hi.turn turn) ?_ ?_
  · intro events h route handler head transport _ hfresh
    have hseen : seen (h.requests + 1) (events ++ [.submitted (h.requests + 1) transport]) =
        [.queued] := by
      have hnone : seen (h.requests + 1) events = [] :=
        List.filterMap_eq_nil_iff.2 fun e he => Event.shows_eq_none (hfresh e he)
      rw [seen_concat, hnone, Event.shows, if_pos rfl]
      rfl
    have houtcomes : outcomes (h.requests + 1) (events ++ [.submitted (h.requests + 1) transport]) =
        [] := by
      have hnone : outcomes (h.requests + 1) events = [] :=
        List.filterMap_eq_nil_iff.2 fun e he => Event.outcome?_eq_none (hfresh e he)
      rw [outcomes_concat, hnone]
      rfl
    exact ⟨⟨fun _ => ⟨rfl, rfl, rfl⟩, nofun, nofun, nofun⟩, by rw [submission, hseen]; rfl,
      by rw [submission, hseen]; exact .singleton _, by rw [submission, hseen]; rfl, houtcomes⟩
  · intro events e i he hi
    have hseen : seen i.id (events ++ [e]) = seen i.id events := by
      rw [seen_concat, Event.shows_eq_none he]
      exact List.append_nil _
    have houtcomes : Host.outcomes i.id (events ++ [e]) = Host.outcomes i.id events := by
      rw [outcomes_concat, Event.outcome?_eq_none he]
      exact List.append_nil _
    exact ⟨hi.coherent, hseen ▸ hi.first, hseen ▸ hi.chain, hseen ▸ hi.last,
      houtcomes.trans hi.outcomes⟩
  · intro events i x _ hi
    exact ⟨⟨hi.coherent.waiting, hi.coherent.running, hi.coherent.verdict, hi.coherent.ending⟩,
      hi.first, hi.chain, hi.last, hi.outcomes⟩

/-- An invocation is finished when its verdict is there. -/
theorem Coherent.isSome_verdict (hi : Coherent i) :
    i.verdict.isSome = true ↔ i.state.isFinished = true := by
  constructor
  · intro hsome
    obtain ⟨v, hv⟩ := Option.isSome_iff_exists.1 hsome
    obtain ⟨hstate, hproper⟩ := hi.verdict v hv
    exact hstate ▸ hproper.finished
  · intro hfinished
    cases hnone : i.verdict with
    | some v => rfl
    | none =>
      cases hbegun : i.work.hasBegun with
      | false =>
        rw [(hi.waiting hbegun).1] at hfinished
        cases hfinished
      | true =>
        rw [hi.running hbegun hnone] at hfinished
        cases hfinished

/-- The verdict on work that is over can be given. -/
theorem step_conclude (hfound : h.find? i.id = some i) (hover : i.isOver = true)
    (hnone : i.verdict = none) : ∃ h', h.step (.conclude i.id) = some h' := by
  obtain ⟨verdict, hwork⟩ : ∃ verdict, i.work = .over verdict := by
    rw [Invocation.isOver] at hover
    split at hover
    · exact ⟨_, ‹_›⟩
    · cases hover
  have hconclude : h.conclude i = some (h.set (i.conclude (verdict i.clientCancelled))) := by
    rw [conclude, hnone, hwork]
  exact ⟨_, Option.bind_eq_some_iff.2 ⟨i, hfound, hconclude⟩⟩

/-! ## Before there is a worker -/

theorem Becomes.hasBegun_of_act {id : Nat} (hb : Becomes h (.act id) i i' free) :
    i.work.hasBegun = true := by
  cases hb with
  | wentOn hrunning => exact hasBegun_of_isRunning hrunning
  | called hwork | returned hwork | crashed hwork =>
    rw [hwork]
    rfl

/-- What has not begun had not begun before, and has only been handed on. -/
theorem Becomes.of_not_begun (hb : Becomes h label i i' free) (hi' : i'.work.hasBegun = false) :
    i.work.hasBegun = false ∧ i'.exchange = i.exchange := by
  cases hb with
  | enqueued hwork | assigned hwork =>
    rw [hwork]
    exact ⟨rfl, rfl⟩
  | wentOn _ _ hw =>
    rw [hasBegun_of_isRunning hw] at hi'
    cases hi'
  | concluded | expired | cancelled => exact ⟨hi', rfl⟩
  | _ => cases hi'

/-- As long as it has not begun, the handler has done nothing and its client has been sent
nothing. -/
def Untouched (events : List (Event R ε)) (i : Invocation ε) : Prop :=
  i.work.hasBegun = false →
    (∀ before after, .stepped (.act i.id) before after ∉ events) ∧
      ∀ transport, .submitted i.id transport ∈ events → i.sent = transport.sent

theorem untouched_of_run (hnew : New h₀) (run : Run h₀ events h) :
    ∀ i ∈ h.invocations, Untouched events i := by
  refine run.each hnew Untouched ?_ ?_ ?_ ?_
  · intro events h route handler head transport _ hfresh _
    refine ⟨fun before after hmem => ?_, fun t ht => ?_⟩
    · exact hfresh _ (mem_concat_submitted.1 hmem) rfl
    · rcases List.mem_append.1 ht with ht | ht
      · exact absurd rfl (hfresh _ ht)
      · cases List.mem_singleton.1 ht
        rfl
  · -- whoever has not begun behind a step had not begun before it
    intro events h label i i' h' _ turn hi hbegun
    obtain ⟨hearlier, hexchange⟩ := turn.becomes.of_not_begun hbegun
    obtain ⟨hnone, hsent⟩ := hi hearlier
    rw [turn.becomes.id_eq]
    refine ⟨fun before after hmem => ?_, fun t ht => ?_⟩
    · rcases List.mem_append.1 hmem with hmem | hmem
      · exact hnone before after hmem
      · cases List.mem_singleton.1 hmem
        rw [turn.becomes.hasBegun_of_act] at hearlier
        cases hearlier
    · rcases List.mem_append.1 ht with ht | ht
      · rw [Invocation.sent, hexchange]
        exact hsent t ht
      · cases List.mem_singleton.1 ht
  · intro events e i he hi hbegun
    obtain ⟨hnone, hsent⟩ := hi hbegun
    refine ⟨fun before after hmem => ?_, fun t ht => ?_⟩
    · exact hnone before after ((mem_concat_of_other he rfl).1 hmem)
    · rcases List.mem_append.1 ht with ht | ht
      · exact hsent t ht
      · obtain rfl := List.mem_singleton.1 ht
        exact absurd rfl he
  · intro events i x helapses hi hbegun
    obtain ⟨hnone, hsent⟩ := hi hbegun
    exact ⟨hnone, fun t ht => helapses.sent.trans (hsent t ht)⟩

/-- An invocation that has been cancelled before it has begun: its client has been sent this
much. -/
structure Withdrawn (h : Host R ε) (sent : Bytes) (i : Invocation ε) : Prop where
  idle : i.work.hasBegun = false ∨ i.isOver = true
  cancelled : h.clock.isCancelled i.token = true
  sent : i.sent = sent

theorem Withdrawn.isRunning {sent : Bytes} (hi : Withdrawn h sent i) :
    i.work.isRunning = false := by
  have hidle := hi.idle
  rw [Invocation.isOver] at hidle
  cases hwork : i.work <;> rw [hwork] at hidle <;>
    first | rfl | (rcases hidle with hidle | hidle <;> cases hidle)

/-- **An invocation that has been cancelled early** is handed on or turned away, and no more. -/
theorem Withdrawn.of_becomes {sent : Bytes} (hi : Withdrawn h sent i)
    (hb : Becomes h label i i' free) (hstill : h'.clock.isCancelled i.token = true) :
    Withdrawn h' sent i' ∧ ∀ id, label ≠ .act id := by
  obtain ⟨hidle, hcancelled, hsent⟩ := hi
  -- such an invocation is never found at work
  have hatWork {w : Work ε} (hw : i.work = w) (hbegun : w.hasBegun = true)
      (hbusy : w.stage ≠ .over) : False := by
    rw [Invocation.isOver, hw, hbegun] at hidle
    rcases hidle with hidle | hidle
    · cases hidle
    · cases w <;> first | exact hbusy rfl | cases hidle
  cases hb with
  | enqueued | assigned => exact ⟨⟨.inl rfl, hstill, hsent⟩, nofun⟩
  | turnedAway =>
    have htoken := (Act.onward_abort
      { i.exchange with wire := { i.exchange.wire with clock := h.clock } }).token
    exact ⟨⟨.inr rfl, (congrArg h'.clock.isCancelled htoken).trans hstill, hsent⟩, nofun⟩
  | started _ hlive =>
    rw [hcancelled] at hlive
    cases hlive
  | wentOn hrunning =>
    have hbusy := Work.stage_of_isRunning hrunning
    exact (hatWork rfl (hasBegun_of_isRunning hrunning) (by rw [hbusy]; nofun)).elim
  | called hwork | returned hwork | crashed hwork | judged hwork | answered hwork =>
    exact (hatWork hwork rfl nofun).elim
  | concluded | expired | cancelled => exact ⟨⟨hidle, hstill, hsent⟩, nofun⟩

/-- What becomes of an invocation that has been cancelled early. -/
theorem withdrawn_of_run {later : List (Event R ε)} {sent : Bytes} {id : Nat} (run : Run h later h')
    (hfound : h.find? id = some i) (hi : Withdrawn h sent i) :
    (∃ i', h'.find? id = some i' ∧ Withdrawn h' sent i') ∧
      ∀ before after, .stepped (.act id) before after ∉ later := by
  induction run with
  | start => exact ⟨⟨i, hfound, hi⟩, nofun⟩
  | submit _ hsubmit ih =>
    obtain ⟨⟨i', hi', hwithdrawn⟩, hnone⟩ := ih
    obtain ⟨rfl, handler, -, rfl⟩ := submit_eq_ok hsubmit
    refine ⟨⟨i', ?_, hwithdrawn.idle, hwithdrawn.cancelled, hwithdrawn.sent⟩,
      fun before after hmem => ?_⟩
    · rw [Host.find?] at hi' ⊢
      rw [List.find?_append, hi']
      rfl
    · exact hnone before after (mem_concat_submitted.1 hmem)
  | step _ hstep ih =>
    obtain ⟨⟨i', hi', hwithdrawn⟩, hnone⟩ := ih
    rcases turn_of_step hstep with ⟨ms, rfl, rfl⟩ | ⟨j, j', turn⟩
    · refine ⟨⟨i', hi', hwithdrawn.idle, ?_, hwithdrawn.sent⟩, fun before after hmem => ?_⟩
      · exact (Clock.passes_pass _ ms).precedes.isCancelled hwithdrawn.cancelled
      · exact hnone before after ((mem_concat_of_ne (by simp)).1 hmem)
    · by_cases hj : j.id = id
      · -- its own step is none of the handler
        obtain rfl := hj
        obtain rfl : j = i' := Option.some.inj (turn.found.symm.trans hi')
        obtain ⟨hwithdrawn', hact⟩ := hwithdrawn.of_becomes turn.becomes
          (turn.clock.isCancelled hwithdrawn.cancelled)
        exact ⟨⟨j', turn.find?, hwithdrawn'⟩, fun before after hmem =>
          hnone before after ((mem_concat_of_ne (hact _)).1 hmem)⟩
      · refine ⟨⟨i', ?_, hwithdrawn.idle, turn.clock.isCancelled hwithdrawn.cancelled,
          hwithdrawn.sent⟩, fun before after hmem => ?_⟩
        · rw [Host.find?, turn.invocations, ← Host.find?, find?_set, hi', turn.becomes.id_eq]
          exact congrArg some (if_neg fun heq => hj (heq.symm.trans (id_of_find? hi')))
        · refine hnone before after ((mem_concat_of_ne ?_).1 hmem)
          rintro rfl
          exact hj (Option.some.inj turn.becomes.id?_eq).symm
  | meanwhile _ hmeanwhile ih =>
    obtain ⟨⟨i', hi', hwithdrawn⟩, hnone⟩ := ih
    obtain ⟨exchange, hinvocations, helapses⟩ := hmeanwhile.invocations
    have helapsed := helapses i' (mem_of_find? hi')
    refine ⟨⟨{ i' with exchange := exchange i' }, ?_, hwithdrawn.idle, ?_, ?_⟩, hnone⟩
    · rw [Host.find?] at hi' ⊢
      rw [hinvocations, List.find?_map]
      exact congrArg (Option.map _) hi'
    · rw [Invocation.token, helapsed.context]
      exact Clock.Precedes.isCancelled
        ⟨hmeanwhile.cancellations, hmeanwhile.now⟩ hwithdrawn.cancelled
    · exact helapsed.sent.trans hwithdrawn.sent

/-! ## The law -/

/-- **What the caller of an invocation sees.**  At first it sees that the invocation is queued, and
in the end what its state is; in between comes after each state only what may come next, so an
invocation that is finished stays as it is, even if its handler returns later.  It is told one
verdict at most, which goes with the state and is there if and only if the invocation is finished;
when the work is over, nothing stands in the way of the verdict.  The handler of an invocation that
is cancelled before it gets a worker never does anything, and nothing is sent to its client. -/
theorem lifecycle_of_run {config : HostConfig} {reachable : Database.Target → Bool}
    (hbuilt : ofConfig config reachable = .ok h₀) {handlers : Record (Handler ε)}
    (run : Run { h₀ with handlers } events h) (hi : i ∈ h.invocations) :
    ((seen i.id events).head? = some .queued ∧
      (seen i.id events).IsChain InvocationState.Next ∧
      (seen i.id events).getLast? = some i.state) ∧
    (outcomes i.id events = i.verdict.toList ∧
      (i.verdict.isSome = true ↔ i.state.isFinished = true) ∧
      (∀ v ∈ i.verdict, v.state = i.state ∧ v.Proper) ∧
      (i.isOver = true → i.verdict = none → ∃ h', h.step (.conclude i.id) = some h')) ∧
    (i.work.stage = .ahead → h.clock.isCancelled i.token = true →
      ∀ later h', Run h later h' →
        (∀ before after, .stepped (.act i.id) before after ∉ events ++ later) ∧
        ∃ i', h'.find? i.id = some i' ∧ i'.work.isRunning = false ∧
          ∀ transport, .submitted i.id transport ∈ events → i'.sent = transport.sent) := by
  obtain ⟨hnew, rfl⟩ := new_of_ofConfig hbuilt handlers
  have hshown := shown_of_run hnew run i hi
  have hfound := find?_of_mem (run.sound hnew).nodup hi
  refine ⟨⟨hshown.first, hshown.chain, hshown.last⟩,
    ⟨hshown.outcomes, hshown.coherent.isSome_verdict, hshown.coherent.verdict,
      step_conclude hfound⟩, fun hahead hcancelled later h' run' => ?_⟩
  have hbegun : i.work.hasBegun = false := by
    cases hwork : i.work <;> rw [hwork] at hahead <;> first | rfl | cases hahead
  obtain ⟨hnone, hsent⟩ := untouched_of_run hnew run i hi hbegun
  obtain ⟨⟨i', hi', hwithdrawn⟩, hlater⟩ :=
    withdrawn_of_run run' hfound ⟨.inl hbegun, hcancelled, rfl⟩
  refine ⟨fun before after hmem => ?_, i', hi', hwithdrawn.isRunning, fun transport ht =>
    hwithdrawn.sent.trans (hsent transport ht)⟩
  rcases List.mem_append.1 hmem with hmem | hmem
  · exact hnone before after hmem
  · exact hlater before after hmem

/-- The first invocation is timed out, and stays so although its handler returns later; the second
one is cancelled while it is in line for the only worker. -/
theorem lifecycle_of_run_late :
    ∃ (h₀ h h' : Host dialect Unit) (handlers : Record (Handler Unit))
      (events later : List (Event dialect Unit))
      (i j : Invocation Unit),
      ofConfig { workers := 1, serviceTimeoutMs := 10 } (fun _ => false) = .ok h₀ ∧
        Run { h₀ with handlers } events h ∧ Run h later h' ∧ i ∈ h'.invocations ∧
        i.isOver = true ∧ (outcomes i.id (events ++ later)).map (·.state) = [.timedOut] ∧
        j ∈ h.invocations ∧
        ∀ before after, .stepped (.act j.id) before after ∉ events ++ later := by
  let config : HostConfig := { workers := 1, serviceTimeoutMs := 10 }
  let h₀ : Host dialect Unit := { config, registry := { reachable := fun _ => false }, free := 1 }
  let handlers : Record (Handler Unit) := [("slow", .sleep 100 (.done (.ok .null)))]
  let moves : List Move := [.submit "slow" (.new "GET" "/") {}, .submit "slow" (.new "GET" "/") {},
    .step (.enqueue 1), .step (.assign 1), .step (.start 1), .step (.act 1), .step (.enqueue 2),
    .step (.cancel 2)]
  let further : List Move := [.pass 10, .expire 1, .pass 90, .act 1, .act 1, .judge 1, .answer 1,
    .assign 2, .start 2].map .step
  have hbuilt : ofConfig config (fun _ => false) = .ok h₀ := rfl
  have hany : (Host.play { h₀ with handlers } moves).any (fun r =>
      (r.2.find? 2).any (fun j => j.work.stage = .ahead && r.2.clock.isCancelled j.token) &&
        (r.2.play further).any fun r' =>
          (r'.2.find? 1).any fun i => i.isOver && i.state = .timedOut) = true := by
    decide +kernel
  obtain ⟨⟨events, h⟩, hplay, hboth⟩ := (Option.any_eq_true ..).1 hany
  obtain ⟨hnow, hthen⟩ := Bool.and_eq_true_iff.1 hboth
  obtain ⟨j, hj, hearly⟩ := (Option.any_eq_true ..).1 hnow
  obtain ⟨⟨later, h'⟩, hplay', hlater⟩ := (Option.any_eq_true ..).1 hthen
  obtain ⟨i, hi, hlate⟩ := (Option.any_eq_true ..).1 hlater
  simp only [Bool.and_eq_true, decide_eq_true_eq] at hearly hlate
  have run : Run { h₀ with handlers } events h := Run.start.of_play hplay
  have run' : Run h later h' := Run.start.of_play hplay'
  have hmem := mem_of_find? hi
  obtain ⟨-, ⟨houtcomes, hsome, hverdict, -⟩, -⟩ :=
    lifecycle_of_run hbuilt (run.of_play hplay') hmem
  obtain ⟨v, hv⟩ := Option.isSome_iff_exists.1 (hsome.2 (by rw [hlate.2]; rfl))
  obtain ⟨-, -, hwithdrawn⟩ := lifecycle_of_run hbuilt run (mem_of_find? hj)
  refine ⟨h₀, h, h', handlers, events, later, i, j, hbuilt, run, run', hmem, hlate.1, ?_,
    mem_of_find? hj, (hwithdrawn hearly.1 hearly.2 later h' run').1⟩
  rw [houtcomes, hv, Option.toList_some, List.map_singleton, (hverdict v hv).1, hlate.2]

end Host

end ScriptHost
