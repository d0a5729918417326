import ScriptHost.Proofs.Host.Ending
import ScriptHost.Proofs.Host.Lifecycle

/-!
# Two looks at one deadline

When a handler has returned, its worker looks at the deadline of the request twice: first for the
verdict, and then for the response, which is not sent any more once the deadline has passed.  A
deadline that has passed at the first look has passed at the second one too.  The other way round
need not hold, because there is time between the two, and the caller may cancel: such an invocation
is completed although nobody has got its response.

* `Host.Decided` — where the verdict on an invocation comes from.
* `Host.Judged` — what the two looks have to do with each other.
* `Host.completed_of_late_iff` — the law for every run.
-/

set_option autoImplicit false

namespace ScriptHost

theorem Verdict.completed_ofReturn {r : Outcome Value} {expired clientCancelled : Bool} :
    (ofReturn r expired clientCancelled).state = .completed ↔
      expired = false ∧ ∃ value, r = .ok value := by
  rw [ofReturn.eq_def]
  split <;> simp [fail, timeOut]

namespace Host

open RoutePattern (dialect)

variable {R : Regex} {ε : Type} {h₀ h h' before after : Host R ε} {events : List (Event R ε)}
  {i i' : Invocation ε} {label other : Label}

/-- The deadline of an invocation has passed. -/
def isLate (h : Host R ε) (id : Nat) : Bool :=
  (h.find? id).any fun i => i.exchange.context.deadline.isExpired h.clock

/-- What the handler of an invocation has returned that has not been judged yet. -/
def returned? (h : Host R ε) (id : Nat) : Option (Outcome Value) :=
  (h.find? id).bind fun i =>
    match i.work with
    | .returned r => some r
    | _ => none

theorem isLate_of_find? (hi : h.find? i.id = some i) :
    h.isLate i.id = i.exchange.context.deadline.isExpired h.clock := by
  rw [isLate, hi]
  rfl

/-! ## The history -/

/-- What has happened lies before what happens now. -/
theorem Run.precedes (run : Run h₀ events h) (hmem : .stepped label before after ∈ events) :
    before.clock.Precedes h.clock := by
  induction run with
  | start => cases hmem
  | submit _ hsubmit ih =>
    obtain ⟨rfl, handler, -, rfl⟩ := submit_eq_ok hsubmit
    rcases List.mem_append.1 hmem with hmem | hmem
    · exact ih hmem
    · cases List.mem_singleton.1 hmem
  | @step events h h' _ _ hstep ih =>
    have hclock : h.clock.Precedes h'.clock := by
      rcases turn_of_step hstep with ⟨ms, -, rfl⟩ | ⟨i, i', turn⟩
      · exact (Clock.passes_pass _ ms).precedes
      · exact turn.clock
    rcases List.mem_append.1 hmem with hmem | hmem
    · exact (ih hmem).trans hclock
    · cases List.mem_singleton.1 hmem
      exact hclock
  | meanwhile _ hmeanwhile ih =>
    exact (ih hmem).trans ⟨hmeanwhile.cancellations, hmeanwhile.now⟩

/-! ## Where a verdict comes from -/

/-- The time for the service has run out for an invocation. -/
def RanOut (events : List (Event R ε)) (id : Nat) : Prop :=
  ∃ before after, .stepped (.expire id) before after ∈ events

theorem ranOut_concat (hlabel : label ≠ .expire i.id) :
    RanOut (events ++ [.stepped label h h']) i.id ↔ RanOut events i.id :=
  exists_congr fun _ => exists_congr fun _ => mem_concat_of_ne hlabel

/-- The verdict on an invocation is that of its work, unless the time for the service has run out
first. -/
structure Decided (events : List (Event R ε)) (i : Invocation ε) : Prop where
  pending : i.verdict = none → ¬RanOut events i.id
  verdict : ∀ v, i.verdict = some v →
    (RanOut events i.id ∧ v = .timeOut Verdict.serviceTimeout) ∨
      (¬RanOut events i.id ∧ ∃ verdict clientCancelled,
        i.work = .over verdict ∧ v = verdict clientCancelled)

/-- A step that neither gives a verdict nor changes what that of the work will be. -/
theorem Decided.keep (hi : Decided events i) (hid : i'.id = i.id) (hlabel : label ≠ .expire i.id)
    (hverdict : i'.verdict = i.verdict)
    (hwork : ∀ verdict, i.work = .over verdict → i'.work = .over verdict) :
    Decided (events ++ [.stepped label h h']) i' := by
  constructor
  · intro hnone
    rw [hid, ranOut_concat hlabel]
    exact hi.pending (hverdict ▸ hnone)
  · intro v hv
    rw [hverdict] at hv
    rw [hid, ranOut_concat hlabel]
    refine (hi.verdict v hv).imp_right fun ⟨hnot, verdict, clientCancelled, hover, heq⟩ => ?_
    exact ⟨hnot, verdict, clientCancelled, hwork verdict hover, heq⟩

/-- A step that gives the verdict of the work. -/
theorem Decided.give (hi : Decided events i) (hnone : i.verdict = none) (hid : i'.id = i.id)
    (hlabel : label ≠ .expire i.id) {verdict : Bool → Verdict} {c : Bool}
    (hwork : i'.work = .over verdict) (hverdict : i'.verdict = some (verdict c)) :
    Decided (events ++ [.stepped label h h']) i' := by
  constructor
  · intro hstill
    rw [hverdict] at hstill
    cases hstill
  · intro v hv
    rw [hverdict] at hv
    rw [hid, ranOut_concat hlabel]
    exact .inr ⟨hi.pending hnone, verdict, c, hwork, (Option.some.inj hv).symm⟩

theorem Turn.decided (turn : Turn h label i i' h') (hi : Decided events i)
    (hcoherent : Coherent i) :
    Decided (events ++ [.stepped label h h']) i' := by
  have hid := turn.becomes.id_eq
  have hb := turn.becomes
  generalize h'.free = free at hb
  cases hb with
  | enqueued hwork | assigned hwork | started hwork | called hwork | returned hwork | judged hwork
  | crashed hwork | answered hwork =>
    exact hi.keep hid (by simp) rfl fun verdict hover => by rw [hwork] at hover; cases hover
  | wentOn hrunning =>
    refine hi.keep hid (by simp) rfl fun verdict hover => ?_
    rw [hover] at hrunning
    cases hrunning
  | cancelled => exact hi.keep hid (by simp) rfl fun _ hover => hover
  | turnedAway hwork =>
    have hnone : i.verdict = none := (hcoherent.waiting (by rw [hwork]; rfl)).2.1
    exact hi.give (c := i.clientCancelled) hnone hid (by simp) rfl rfl
  | concluded hnone hwork => exact hi.give hnone hid (by simp) hwork rfl
  | expired =>
    refine ⟨nofun, fun v hv => .inl ⟨⟨h, h', ?_⟩, (Option.some.inj hv).symm⟩⟩
    exact List.mem_append_right _ (List.mem_singleton_self _)

theorem decided_of_run (hnew : New h₀) (run : Run h₀ events h) :
    ∀ i ∈ h.invocations, Decided events i := by
  refine run.each hnew Decided ?_ ?_ ?_ ?_
  · intro events h route handler head transport _ hfresh
    refine ⟨?_, nofun⟩
    rintro - ⟨before, after, hmem⟩
    exact hfresh _ (mem_concat_submitted.1 hmem) rfl
  · intro events h label i i' h' run turn hi
    exact turn.decided hi (shown_of_run hnew run i (mem_of_find? turn.found)).coherent
  · intro events e i he hi
    have hiff : RanOut (events ++ [e]) i.id ↔ RanOut events i.id :=
      exists_congr fun _ => exists_congr fun _ => mem_concat_of_other he rfl
    refine ⟨fun hnone => hiff.not.2 (hi.pending hnone), fun v hv => ?_⟩
    rw [hiff]
    exact hi.verdict v hv
  · exact fun _ hi => ⟨hi.pending, hi.verdict⟩

/-! ## The two looks -/

/-- The worker has taken its first look, and has found this. -/
def Judging (events : List (Event R ε)) (i : Invocation ε) (r : Outcome Value)
    (expired : Bool) : Prop :=
  ∃ before after j, .stepped (.judge i.id) before after ∈ events ∧ before.find? i.id = some j ∧
    before.returned? i.id = some r ∧ before.isLate i.id = expired ∧
    j.exchange.context = i.exchange.context

/-- Both looks at the deadline of an invocation, the second one with its consequence. -/
def Looks (events : List (Event R ε)) (id : Nat) (before after : Host R ε) (r : Outcome Value)
    (expired : Bool) : Prop :=
  (∃ judging judged, .stepped (.judge id) judging judged ∈ events ∧
      judging.returned? id = some r ∧ judging.isLate id = expired) ∧
    (expired = true → before.isLate id = true) ∧
    (before.isLate id = true →
      ∃ i₁ i₂, before.find? id = some i₁ ∧ after.find? id = some i₂ ∧ i₂.sent = i₁.sent)

/-- What the history says of the looks at the deadline of an invocation. -/
structure Judged (events : List (Event R ε)) (i : Invocation ε) : Prop where
  unanswered : i.isOver = false → ∀ before after, .stepped (.answer i.id) before after ∉ events
  judging : ∀ r expired, i.work = .judged r expired → Judging events i r expired
  answered : ∀ before after, .stepped (.answer i.id) before after ∈ events →
    ∃ r expired, Looks events i.id before after r expired ∧
      i.work = .over (Verdict.ofReturn r expired)

/-- A step that leaves the work and the request alone. -/
theorem Judged.keep (hi : Judged events i) (hid : i'.id = i.id) (hanswer : label ≠ .answer i.id)
    (hjudge : label ≠ .judge i.id) (hwork : i'.work = i.work)
    (hcontext : i'.exchange.context = i.exchange.context) :
    Judged (events ++ [.stepped label h h']) i' := by
  constructor
  · intro hover before after
    rw [Invocation.isOver, hwork] at hover
    rw [hid, mem_concat_of_ne hanswer]
    exact hi.unanswered hover before after
  · intro r expired hjudged
    rw [hwork] at hjudged
    rw [Judging, hid, hcontext]
    simp only [mem_concat_of_ne hjudge]
    exact hi.judging r expired hjudged
  · intro before after
    rw [hid, hwork, mem_concat_of_ne hanswer]
    simp only [Looks, mem_concat_of_ne hjudge]
    exact hi.answered before after

/-- A step before the first look leads to another one, or to the end without any look. -/
theorem Judged.early (hi : Judged events i) (hid : i'.id = i.id) (hover : i.isOver = false)
    (hlabel : label ≠ .answer i.id) (hwork : ∀ r expired, i'.work ≠ .judged r expired) :
    Judged (events ++ [.stepped label h h']) i' := by
  have hnone : ∀ before after,
      .stepped (.answer i'.id) before after ∉ events ++ [.stepped label h h'] := by
    intro before after
    rw [hid, mem_concat_of_ne hlabel]
    exact hi.unanswered hover before after
  exact ⟨fun _ => hnone, fun r expired heq => absurd heq (hwork r expired),
    fun before after hmem => absurd hmem (hnone before after)⟩

/-- The first look. -/
theorem Judged.judge (hi : Judged events i) {r : Outcome Value} (hwork : i.work = .returned r)
    (hfound : h.find? i.id = some i) :
    Judged (events ++ [.stepped (.judge i.id) h h'])
      { i with work := .judged r (i.exchange.context.deadline.isExpired h.clock) } := by
  have hnone : ∀ before after,
      .stepped (.answer i.id) before after ∉ events ++ [.stepped (.judge i.id) h h'] := by
    intro before after
    have hne : Label.judge i.id ≠ .answer i.id := nofun
    rw [mem_concat_of_ne hne]
    exact hi.unanswered (by rw [Invocation.isOver, hwork]) before after
  refine ⟨fun _ => hnone, fun r' expired hjudged => ?_, fun before after hmem =>
    absurd hmem (hnone before after)⟩
  cases hjudged
  have hlate := isLate_of_find? hfound
  refine ⟨h, h', i, List.mem_append_right _ (List.mem_singleton_self _), hfound, ?_, hlate, rfl⟩
  rw [returned?, hfound, Option.bind_some, hwork]

/-- The second look, at the deadline that the first one was at. -/
theorem Judged.answer (hi : Judged events i) (run : Run h₀ events h) {r : Outcome Value}
    {expired : Bool} (hwork : i.work = .judged r expired) (hfound : h.find? i.id = some i)
    (hfound' : h'.find? i.id = some i') (hid : i'.id = i.id)
    (hover : i'.work = .over (Verdict.ofReturn r expired))
    (hsent : i.exchange.context.deadline.isExpired h.clock = true → i'.sent = i.sent) :
    Judged (events ++ [.stepped (.answer i.id) h h']) i' := by
  obtain ⟨judging, judged, j, hmem, hj, hreturned, hlate, hcontext⟩ := hi.judging r expired hwork
  refine ⟨fun hnot => ?_, fun r' expired' heq => ?_, fun before after hanswer => ?_⟩
  · rw [Invocation.isOver, hover] at hnot
    cases hnot
  · rw [hover] at heq
    cases heq
  · rw [hid] at hanswer ⊢
    rcases List.mem_append.1 hanswer with hanswer | hanswer
    · exact absurd hanswer (hi.unanswered (by rw [Invocation.isOver, hwork]) before after)
    · cases List.mem_singleton.1 hanswer
      refine ⟨r, expired, ⟨⟨judging, judged, List.mem_append_left _ hmem, hreturned, hlate⟩,
        fun hexpired => ?_, fun hnow => ?_⟩, hover⟩
      · -- the deadline is the same, and the clock has gone on
        have hjid := id_of_find? hj
        rw [hexpired, ← hjid, isLate_of_find? (hjid ▸ hj), hcontext] at hlate
        rw [isLate_of_find? hfound]
        exact (run.precedes hmem).isExpired hlate
      · rw [isLate_of_find? hfound] at hnow
        exact ⟨i, i', hfound, hfound', hsent hnow⟩

theorem Turn.judged (turn : Turn h label i i' h') (run : Run h₀ events h) (hi : Judged events i) :
    Judged (events ++ [.stepped label h h']) i' := by
  have hid := turn.becomes.id_eq
  have hfound' := turn.find?
  have hb := turn.becomes
  generalize h'.free = free at hb
  cases hb with
  | enqueued hwork | assigned hwork | turnedAway hwork | started hwork | called hwork
  | returned hwork | crashed hwork =>
    exact hi.early hid (by rw [Invocation.isOver, hwork]) (by simp) (by simp)
  | wentOn hrunning _ hw =>
    refine hi.early hid ?_ (by simp) fun r expired heq => ?_
    · rw [Invocation.isOver]
      split
      · rename_i hwork
        rw [hwork] at hrunning
        cases hrunning
      · rfl
    · cases heq
      cases hw
  | concluded | expired | cancelled => exact hi.keep hid (by simp) (by simp) rfl rfl
  | judged hwork => exact hi.judge hwork turn.found
  | answered hwork =>
    refine hi.answer run hwork turn.found hfound' hid rfl fun hlate => ?_
    exact congrArg Transport.sent ((Act.finishes i.clientCancelled _ _).transport_of_late hlate)

theorem judged_of_run (hnew : New h₀) (run : Run h₀ events h) :
    ∀ i ∈ h.invocations, Judged events i := by
  refine run.each hnew Judged ?_ (fun run turn hi => turn.judged run hi) ?_ ?_
  · intro events h route handler head transport _ hfresh
    have hnone : ∀ before after, .stepped (.answer (h.requests + 1)) before after ∉
        events ++ [.submitted (h.requests + 1) transport] :=
      fun before after hmem => hfresh _ (mem_concat_submitted.1 hmem) rfl
    exact ⟨fun _ => hnone, nofun, fun before after hmem => absurd hmem (hnone before after)⟩
  · intro events e i he hi
    have hjudge : (Label.judge i.id).id? = some i.id := rfl
    have hanswer : (Label.answer i.id).id? = some i.id := rfl
    refine ⟨fun hover before after => ?_, fun r expired hwork => ?_, fun before after => ?_⟩
    · rw [mem_concat_of_other he hanswer]
      exact hi.unanswered hover before after
    · simp only [Judging, mem_concat_of_other he hjudge]
      exact hi.judging r expired hwork
    · rw [mem_concat_of_other he hanswer]
      simp only [Looks, mem_concat_of_other he hjudge]
      exact hi.answered before after
  · intro events i x helapses hi
    refine ⟨hi.unanswered, fun r expired hwork => ?_, hi.answered⟩
    rw [Judging, helapses.context]
    exact hi.judging r expired hwork

/-! ## The law -/

/-- **When the two looks disagree.**  The handler of an invocation whose response has been finished
has been judged before.  A deadline that had passed by then has passed when the response is
finished, too; and if it has passed when the response is finished, nothing is sent.  The invocation
is completed all the same if and only if its handler has returned a value, the deadline had not
passed yet when it was judged, and the time for the service has not run out in between. -/
theorem completed_of_late_iff {config : HostConfig} {reachable : Database.Target → Bool}
    (hbuilt : ofConfig config reachable = .ok h₀) {handlers : Record (Handler ε)}
    (run : Run { h₀ with handlers } events h) (hi : i ∈ h.invocations)
    (hanswer : .stepped (.answer i.id) before after ∈ events) :
    ∃ judging judged r, .stepped (.judge i.id) judging judged ∈ events ∧
      judging.returned? i.id = some r ∧
      (judging.isLate i.id = true → before.isLate i.id = true) ∧
      (before.isLate i.id = true →
        (∃ i₁ i₂, before.find? i.id = some i₁ ∧ after.find? i.id = some i₂ ∧ i₂.sent = i₁.sent) ∧
        ∀ v ∈ i.verdict, v.state = .completed ↔
          (∃ value, r = .ok value) ∧ judging.isLate i.id = false ∧ ¬RanOut events i.id) := by
  obtain ⟨hnew, rfl⟩ := new_of_ofConfig hbuilt handlers
  obtain ⟨r, expired, ⟨⟨judging, judged, hjudge, hreturned, hexpired⟩, hlater, hsent⟩, hwork⟩ :=
    (judged_of_run hnew run i hi).answered before after hanswer
  rw [← hexpired] at hlater hwork
  refine ⟨judging, judged, r, hjudge, hreturned, hlater, fun hlate => ⟨hsent hlate, ?_⟩⟩
  intro v hv
  rcases (decided_of_run hnew run i hi).verdict v hv with ⟨hran, rfl⟩ |
    ⟨hnot, verdict, c, hover, rfl⟩
  · refine ⟨nofun, fun hall => absurd hran hall.2.2⟩
  · cases hwork.symm.trans hover
    rw [Verdict.completed_ofReturn]
    exact ⟨fun ⟨hintime, hok⟩ => ⟨hok, hintime, hnot⟩, fun ⟨hok, hintime, _⟩ => ⟨hintime, hok⟩⟩

/-- A handler that gives itself little time, which passes between the two looks. -/
theorem exists_unheard :
    ∃ (h₀ h before after : Host dialect Unit) (handlers : Record (Handler Unit))
      (events : List (Event dialect Unit))
      (i : Invocation Unit) (v : Verdict),
      ofConfig {} (fun _ => false) = .ok h₀ ∧ Run { h₀ with handlers } events h ∧
        i ∈ h.invocations ∧ .stepped (.answer i.id) before after ∈ events ∧
        before.isLate i.id = true ∧ v ∈ i.verdict ∧ v.state = .completed ∧ i.sent = [] := by
  let h₀ : Host dialect Unit :=
    { config := {}, registry := { reachable := fun _ => false }, free := 8 }
  let handler : Handler Unit := .request (.resetTimeout 20) fun _ => .done (.ok .null)
  let moves : List Move := .submit "brief" (.new "GET" "/") {} ::
    [.enqueue 1, .assign 1, .start 1, .act 1, .act 1, .act 1, .judge 1, .pass 20, .answer 1,
      .conclude 1].map .step
  let isAnswer : Label → Bool
    | .answer id => id = 1
    | _ => false
  let answeredLate : Event dialect Unit → Bool
    | .stepped label before _ => isAnswer label && before.isLate 1
    | .submitted _ _ => false
  -- the run is evaluated once, for all that is said of it
  have hany : (Host.play { h₀ with handlers := [("brief", handler)] } moves).any (fun r =>
      r.1.any answeredLate && (r.2.find? 1).any fun i =>
        i.verdict.any (·.state = .completed) && i.sent = []) = true := by
    decide +kernel
  obtain ⟨⟨events, h⟩, hplay, hboth⟩ := (Option.any_eq_true ..).1 hany
  obtain ⟨hthen, hnow⟩ := Bool.and_eq_true_iff.1 hboth
  obtain ⟨e, hmem, he⟩ := List.any_eq_true.1 hthen
  obtain ⟨i, hfound, hends⟩ := (Option.any_eq_true ..).1 hnow
  obtain ⟨hverdict, hsent⟩ := Bool.and_eq_true_iff.1 hends
  obtain ⟨v, hv, hcompleted⟩ := (Option.any_eq_true ..).1 hverdict
  rw [decide_eq_true_eq] at hsent hcompleted
  cases e with
  | submitted => cases he
  | stepped label before after =>
    obtain ⟨hlabel, hlate⟩ := Bool.and_eq_true_iff.1 he
    obtain rfl : label = .answer i.id := by
      cases label with
      | answer id => rw [id_of_find? hfound, of_decide_eq_true hlabel]
      | _ => cases hlabel
    rw [← id_of_find? hfound] at hlate
    exact ⟨h₀, h, before, after, _, events, i, v, rfl, Run.start.of_play hplay,
      mem_of_find? hfound, hmem, hlate, hv, hcompleted, hsent⟩

/-- Such an invocation had not been late when it was judged. -/
theorem completed_of_late_iff_unheard :
    ∃ (h₀ h before after : Host dialect Unit) (handlers : Record (Handler Unit))
      (events : List (Event dialect Unit))
      (i : Invocation Unit),
      ofConfig {} (fun _ => false) = .ok h₀ ∧ Run { h₀ with handlers } events h ∧
        i ∈ h.invocations ∧ .stepped (.answer i.id) before after ∈ events ∧
        before.isLate i.id = true ∧
        ∃ judging judged, .stepped (.judge i.id) judging judged ∈ events ∧
          judging.isLate i.id = false := by
  obtain ⟨h₀, h, before, after, handlers, events, i, v, hbuilt, run, hi, hanswer, hlate, hv,
    hcompleted, -⟩ := exists_unheard
  obtain ⟨judging, judged, r, hjudge, -, -, hends⟩ := completed_of_late_iff hbuilt run hi hanswer
  obtain ⟨-, hiff⟩ := hends hlate
  exact ⟨h₀, h, before, after, handlers, events, i, hbuilt, run, hi, hanswer, hlate, judging,
    judged, hjudge, ((hiff v hv).1 hcompleted).2.1⟩

/-- A response that is withheld need not show in the verdict. -/
theorem late_yet_completed :
    ¬ ∀ (h₀ h before after : Host dialect Unit) (handlers : Record (Handler Unit))
      (events : List (Event dialect Unit)) (i : Invocation Unit) (v : Verdict),
      ofConfig {} (fun _ => false) = .ok h₀ → Run { h₀ with handlers } events h →
      i ∈ h.invocations → .stepped (.answer i.id) before after ∈ events →
      before.isLate i.id = true → i.sent = [] → v ∈ i.verdict →
      v.state = .timedOut ∨ v.state = .failed := by
  intro hall
  obtain ⟨h₀, h, before, after, handlers, events, i, v, hbuilt, run, hi, hanswer, hlate, hv,
    hcompleted, hsent⟩ := exists_unheard
  rcases hall h₀ h before after handlers events i v hbuilt run hi hanswer hlate hsent hv with
    heq | heq
  all_goals
    rw [hcompleted] at heq
    cases heq

end Host

end ScriptHost
