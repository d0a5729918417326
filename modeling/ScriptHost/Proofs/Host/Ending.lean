import ScriptHost.Proofs.Host.Run
import ScriptHost.Proofs.Stream.Response

/-!
# The end of a response

When a handler has returned, the host finishes the response: it ends a request that is out of time,
it leaves alone what the handler has answered by itself, and otherwise it answers for the handler.

* `Act.Finishes`, `Act.finishes` — what finishing comes to: one call, or none, or a second one that
  drops a transport that would not take the response.
* `Envelope.response` — the bytes of the response that carries an envelope.
* `Host.Handled`, `Host.handled_of_run` — the request of each invocation is in the hands of its
  handler and its host alone, so that what is known of requests holds of it.
* `Host.ending_of_run` — the law for every run.
-/

set_option autoImplicit false

namespace ScriptHost

open Request Exchange

/-! ## Finishing a response -/

namespace Act

variable {α β : Type}

theorem clock_bind (f : Clock → Act β) (x : Exchange) : (clock >>= f) x = f x.wire.clock x := rfl

theorem return_apply (a : Act α) (v : β) (x : Exchange) :
    (a >>= fun _ => pure v) x = ((a x).1.map fun _ => v, (a x).2) := by
  rw [bind_apply]
  rcases a x with ⟨e | w, x'⟩ <;> rfl

/-- The call that answers for a handler. -/
def answering (r : Outcome Value) : Call :=
  .respond (Envelope.ofReturn r).status (Envelope.ofReturn r).contentType (Envelope.ofReturn r).body

/-- What finishing a response comes to. -/
inductive Finishes (clientCancelled : Bool) (r : Outcome Value) (x : Exchange) : Exchange → Prop
  | late : x.context.deadline.isExpired x.wire.clock = true →
      Finishes clientCancelled r x (call x (if clientCancelled then .abort else .markTimedOut)).2
  | alone : x.context.deadline.isExpired x.wire.clock = false →
      x.context.phase.isTerminal = true → Finishes clientCancelled r x x
  | begun : x.context.deadline.isExpired x.wire.clock = false →
      x.context.phase.isTerminal = false → x.context.headSent = true →
      Finishes clientCancelled r x (call x .complete).2
  | answered : x.context.deadline.isExpired x.wire.clock = false →
      x.context.phase.isTerminal = false → x.context.headSent = false →
      (call x (answering r)).1.isOk = true ∨
        (call x (answering r)).2.context.phase.isTerminal = true →
      Finishes clientCancelled r x (call x (answering r)).2
  | refused : x.context.deadline.isExpired x.wire.clock = false →
      x.context.phase.isTerminal = false → x.context.headSent = false →
      (call x (answering r)).1.isOk = false →
      (call x (answering r)).2.context.phase.isTerminal = false →
      Finishes clientCancelled r x (call (call x (answering r)).2 .abort).2

/-- Answering for a handler, and dropping a transport that does not take the response. -/
theorem finishes_answering {clientCancelled : Bool} {r : Outcome Value} {x : Exchange}
    (hlive : x.context.deadline.isExpired x.wire.clock = false)
    (hopen : x.context.phase.isTerminal = false) (hfresh : x.context.headSent = false) :
    Finishes clientCancelled r x
      (tryCatch (respond (Envelope.ofReturn r).status (Envelope.ofReturn r).contentType
        (Envelope.ofReturn r).body) (fun _ => do
          if !(← context).phase.isTerminal then abort) x).2 := by
  have hanswered : _ → Finishes clientCancelled r x _ := .answered hlive hopen hfresh
  have hrefused : _ → _ → Finishes clientCancelled r x _ := .refused hlive hopen hfresh
  rw [answering, call, act, return_apply] at hanswered hrefused
  rw [tryCatch_apply]
  generalize respond (Envelope.ofReturn r).status (Envelope.ofReturn r).contentType
    (Envelope.ofReturn r).body x = result at hanswered hrefused
  obtain ⟨f | v, x'⟩ := result
  · dsimp only
    rw [context_bind]
    split
    · rename_i hstill
      have habort := hrefused rfl (by simpa using hstill)
      rwa [call, act, return_apply] at habort
    · rename_i hdone
      exact hanswered (.inr (by simpa using hdone))
  · exact hanswered (.inl rfl)

theorem finishes (clientCancelled : Bool) (r : Outcome Value) (x : Exchange) :
    Finishes clientCancelled r x (finishResponse clientCancelled r x).2 := by
  rw [finishResponse.eq_def, context_bind, clock_bind]
  split
  · rename_i hlate
    have hlate : Finishes clientCancelled r x _ := .late hlate
    rw [call] at hlate
    split at hlate
    all_goals
      rename_i hcancelled
      rw [act, return_apply] at hlate
      simpa [hcancelled] using hlate
  · rename_i hlive
    have hlive := Bool.eq_false_iff.2 hlive
    split
    · exact .alone hlive ‹_›
    · rename_i hopen
      have hopen := Bool.eq_false_iff.2 hopen
      -- an open request has not been upgraded, so only a head can have answered it
      have hup : x.context.phase ≠ .upgraded := fun heq => by simp [heq, Phase.isTerminal] at hopen
      simp only [Context.returnless, hup, decide_false, Bool.or_false]
      split
      · rename_i hbegun
        have hcomplete : Finishes clientCancelled r x _ := .begun hlive hopen hbegun
        rw [call, act, return_apply] at hcomplete
        rw [tryCatch_apply]
        rcases hx : complete x with ⟨e | v, x'⟩ <;> rw [hx] at hcomplete <;> exact hcomplete
      · rename_i hfresh
        exact finishes_answering hlive hopen (Bool.eq_false_iff.2 hfresh)

theorem isTerminal_abort (x : Exchange) :
    (call x .abort).2.context.phase.isTerminal = true := by
  rw [call_abort]
  dsimp only
  split
  · rename_i hup
    rw [hup]
    rfl
  · rfl

theorem call_markTimedOut (x : Exchange) :
    (call x .markTimedOut).2 =
      { x with
        wire := { x.wire with clock := x.wire.clock.cancel x.context.token }
        context := if x.context.phase.isTerminal then x.context
          else { x.context with phase := .timedOut } } := by
  rw [call, act, return_apply]
  rfl

theorem isTerminal_complete {x : Exchange} (hopen : x.context.phase.isTerminal = false) :
    (call x .complete).2.context.phase.isTerminal = true := by
  rw [call, act, return_apply, complete, context_bind]
  dsimp only
  split
  · rename_i hdone
    rw [hdone] at hopen
    cases hopen
  · rw [if_neg (Bool.eq_false_iff.1 hopen)]
    rfl

/-- A response that could be sent. -/
theorem sent_of_respond {status : Nat} {type : String} {data : Bytes} {x : Exchange}
    (hok : (call x (.respond status type data)).1.isOk = true) :
    Sent x (.responded x.context status type data) (call x (.respond status type data)).2 := by
  have hdoes := does x (.respond status type data)
  generalize call x (.respond status type data) = result at hok hdoes
  obtain ⟨reply, x'⟩ := result
  cases hdoes with
  | quiet _ hnone =>
    rcases hnone with ⟨e, rfl⟩ | hnone
    · cases hok
    · cases hnone
  | sent hs hsent =>
    cases hs
    exact hsent
  | onSocket hon => cases hon

theorem Finishes.isTerminal {clientCancelled : Bool} {r : Outcome Value} {x x' : Exchange}
    (h : Finishes clientCancelled r x x') : x'.context.phase.isTerminal = true := by
  cases h with
  | late =>
    split
    · exact isTerminal_abort x
    · rw [call_markTimedOut]
      dsimp only
      split
      · assumption
      · rfl
  | alone _ hterminal => exact hterminal
  | begun _ hopen => exact isTerminal_complete hopen
  | answered _ _ _ hdone =>
    rcases hdone with hok | hterminal
    · rw [answering, (sent_of_respond hok).after]
      rfl
    · exact hterminal
  | refused => exact isTerminal_abort _

/-- A request that is out of time is ended without a word. -/
theorem Finishes.transport_of_late {clientCancelled : Bool} {r : Outcome Value} {x x' : Exchange}
    (h : Finishes clientCancelled r x x')
    (hlate : x.context.deadline.isExpired x.wire.clock = true) :
    x'.wire.transport = x.wire.transport := by
  cases h with
  | late =>
    split
    · rw [call_abort]
      split <;> rfl
    · rw [call_markTimedOut]
  | alone hlive | begun hlive | answered hlive | refused hlive =>
    simp [hlate] at hlive

/-- Finishing is calls on the request. -/
theorem Finishes.handling {clientCancelled : Bool} {r : Outcome Value} {x₀ x x' : Exchange}
    {deeds : List Deed} (hx : Handling x₀ deeds x) (h : Finishes clientCancelled r x x') :
    ∃ deeds', Handling x₀ deeds' x' := by
  cases h with
  | late => exact ⟨_, hx.call _⟩
  | alone => exact ⟨_, hx⟩
  | begun => exact ⟨_, hx.call _⟩
  | answered => exact ⟨_, hx.call _⟩
  | refused => exact ⟨_, (hx.call _).call _⟩

end Act

/-! ## Open requests -/

namespace Request

/-- The context has its transport as long as the request is open. -/
def Holds (x : Exchange) : Prop := x.context.phase.isTerminal = false → x.context.attached = true

theorem holds_of_quiet {x x' : Exchange} (hquiet : Quiet x x') (hx : Holds x) : Holds x' := by
  intro hopen
  rw [hquiet.attached]
  refine hx (Bool.eq_false_iff.2 fun hterminal => ?_)
  rw [← hquiet.phase.eq_of_isTerminal hterminal, hterminal] at hopen
  cases hopen

theorem Does.holds {x x' : Exchange} {c : Call} {r : Outcome Reply} (h : Does x c r x')
    (hx : Holds x) : Holds x' := by
  cases h with
  | quiet hquiet => exact holds_of_quiet hquiet hx
  | @sent _ _ s _ _ hsent =>
    have hbefore := hsent.before
    rw [Holds, hsent.after]
    cases s with
    | wrote c data =>
      obtain rfl : c = x.context := hbefore
      exact fun _ => hsent.attached
    | responded | upgraded => exact fun hopen => by cases hopen
  | aborted => exact fun hopen => by cases hopen
  | onSocket _ hkept =>
    rw [Holds, hkept.1]
    exact hx

theorem holds_of_handling {x₀ x : Exchange} {deeds : List Deed} (hx₀ : Holds x₀)
    (h : Handling x₀ deeds x) : Holds x := by
  induction h with
  | start => exact hx₀
  | @call deeds x₁ _ c ih => exact (Deed.does ⟨c, x₁⟩).holds ih
  | @readOn deeds x₁ _ r ih => exact holds_of_quiet (Act.quiet_doRead r x₁) ih
  | meanwhile _ helapses ih =>
    rw [Holds, helapses.context]
    exact ih

end Request

/-! ## A response that arrives -/

namespace Act

theorem isOk_send {w : Wire} {d : Deadline} (operation : String) (data : Bytes)
    (hout : w.transport.outgoing = []) (hopen : w.transport.refused = none)
    (hlive : d.isExpired w.clock = false) : (w.send d operation data).1 = .ok () := by
  rw [Wire.send, hout]
  cases data with
  | nil => rfl
  | cons b data => simp [Wire.sendBy, hlive, hopen]

/-- The request is still to be answered, and its client is there. -/
structure Awaits (x : Exchange) : Prop where
  opened : x.context.phase.isTerminal = false
  fresh : x.context.headSent = false
  attached : x.context.attached = true
  live : x.context.deadline.isExpired x.wire.clock = false
  outgoing : x.wire.transport.outgoing = []
  connected : x.wire.transport.refused = none

theorem Awaits.isOk {x : Exchange} (h : Awaits x) (status : Nat) (type : String) (data : Bytes) :
    (call x (.respond status type data)).1.isOk = true := by
  have hsend (out : Bytes) : (x.wire.send x.context.deadline "write response" out).1 = .ok () :=
    isOk_send _ out h.outgoing h.connected h.live
  rw [call, act, return_apply, respond, ensureOpen_bind _ _ h.opened, context_bind, h.fresh]
  simp only [Bool.false_eq_true, if_false]
  rw [modify_bind, context_bind, bind_apply, transfer, if_pos h.attached]
  dsimp only [Io.writeAll]
  generalize Utf8.encode _ ++ data = out
  have hsend := hsend out
  generalize x.wire.send x.context.deadline "write response" out = result at hsend ⊢
  obtain ⟨r, w⟩ := result
  obtain rfl := hsend
  rfl

/-- A request that waits for its response gets that of its handler's result. -/
theorem Finishes.sent_of_awaits {clientCancelled : Bool} {r : Outcome Value} {x x' : Exchange}
    (h : Finishes clientCancelled r x x') (hx : Awaits x) :
    x'.wire.transport.sent = x.wire.transport.sent ++
      (Sending.responded x.context (Envelope.ofReturn r).status (Envelope.ofReturn r).contentType
        (Envelope.ofReturn r).body).bytes := by
  have hok := hx.isOk (Envelope.ofReturn r).status (Envelope.ofReturn r).contentType
    (Envelope.ofReturn r).body
  cases h with
  | late hlate => simp [hx.live] at hlate
  | alone _ hover => simp [hx.opened] at hover
  | begun _ _ hbegun => simp [hx.fresh] at hbegun
  | answered => rw [answering, (sent_of_respond hok).transport hx.outgoing]
  | refused _ _ _ hfailed => simp [answering, hok] at hfailed

end Act

/-! ## The response to a return -/

namespace Envelope

/-- The lines of a head. -/
def lines (fields : List (String × String)) : String :=
  String.join (fields.map fun (name, value) => name ++ ": " ++ value ++ "\r\n")

/-- The response that carries an envelope behind other fields. -/
def response (e : Envelope) (fields : List (String × String)) : Bytes :=
  Utf8.encode ("HTTP/1.1 " ++ toString e.status ++ " " ++ reasonPhrase e.status ++ "\r\n" ++
    lines (fields ++
      [("Content-Type", e.contentType), ("Content-Length", toString e.body.length)]) ++
    "\r\n") ++ e.body

theorem bytes_responded (e : Envelope) (c : Context) :
    (Sending.responded c e.status e.contentType e.body).bytes = e.response c.headers := by
  rw [Sending.bytes, Context.responseHead_eq]
  simp [response, lines, Context.answering, Context.ownField]

end Envelope

/-! ## The requests of a host -/

namespace Host

open RoutePattern (dialect)

variable {R : Regex} {ε : Type} {h₀ h h' : Host R ε} {events : List (Event R ε)}
  {i i' : Invocation ε}

/-- A request as it is dispatched. -/
def dispatched (clock : Clock) (head : Head) (timeout : Int) (id : Nat) (transport : Transport) :
    Exchange :=
  { context := .new clock head timeout ⟨id⟩ ⟨id⟩, wire := { clock, transport } }

/-- Calls of the host at a time of its own. -/
theorem Becomes.handling {label : Label} {free : Nat} (hb : Becomes h label i i' free)
    {x₀ : Exchange} {deeds : List Deed} (hi : Handling x₀ deeds i.exchange) :
    ∃ deeds', Handling x₀ deeds' i'.exchange := by
  have now (clock : Clock) :
      Handling x₀ deeds { i.exchange with wire := { i.exchange.wire with clock } } :=
    hi.meanwhile ⟨rfl, rfl, rfl, rfl⟩
  cases hb with
  | turnedAway => exact ⟨_, (now h.clock).call .abort⟩
  | started => exact ⟨_, (now h.clock).call (.resetTimeout h.config.serviceTimeoutMs)⟩
  | @called _ c since => exact ⟨_, (now { h.clock with now := since }).call c⟩
  | answered => exact (Act.finishes i.clientCancelled _ _).handling (now h.clock)
  | _ => exact ⟨deeds, hi⟩

/-- All that has happened to the request of an invocation are calls, by its handler or its host, and
what goes on between them. -/
def Handled (events : List (Event R ε)) (i : Invocation ε) : Prop :=
  ∃ transport, (∀ t, .submitted i.id t ∈ events → t = transport) ∧
    ∃ clock head timeout deeds,
      Handling (dispatched clock head timeout i.id transport) deeds i.exchange

theorem handled_of_run (hnew : New h₀) (run : Run h₀ events h) :
    ∀ i ∈ h.invocations, Handled events i := by
  refine run.each hnew Handled ?_ ?_ ?_ ?_
  · intro events h route handler head transport _ hfresh
    refine ⟨transport, fun t ht => ?_, _, head, _, [], .start⟩
    rcases List.mem_append.1 ht with ht | ht
    · exact absurd rfl (hfresh _ ht)
    · cases List.mem_singleton.1 ht
      rfl
  · rintro events h label i i' h' - turn ⟨transport, honly, clock, head, timeout, deeds, hi⟩
    obtain ⟨deeds', hi'⟩ := turn.becomes.handling hi
    have hid := turn.becomes.id_eq
    refine ⟨transport, fun t ht => ?_, clock, head, timeout, deeds', hid ▸ hi'⟩
    rw [hid] at ht
    rcases List.mem_append.1 ht with ht | ht
    · exact honly t ht
    · cases List.mem_singleton.1 ht
  · rintro events e i he ⟨transport, honly, hi⟩
    refine ⟨transport, fun t ht => ?_, hi⟩
    rcases List.mem_append.1 ht with ht | ht
    · exact honly t ht
    · obtain rfl := List.mem_singleton.1 ht
      exact absurd rfl he
  · rintro events i x helapses ⟨transport, honly, clock, head, timeout, deeds, hi⟩
    exact ⟨transport, honly, clock, head, timeout, deeds, hi.meanwhile helapses⟩

/-- A worker that has judged its invocation can always finish the response. -/
theorem step_answer {r : Outcome Value} {expired : Bool} (hfound : h.find? i.id = some i)
    (hwork : i.work = .judged r expired) :
    ∃ h' i', h.step (.answer i.id) = some h' ∧ h'.find? i.id = some i' ∧
      i'.exchange =
        (Act.finishResponse i.clientCancelled r
          { i.exchange with wire := { i.exchange.wire with clock := h.clock } }).2 := by
  let i' : Invocation ε := { (i.act h.clock (Act.finishResponse i.clientCancelled r)).2.2 with
    work := .over (Verdict.ofReturn r expired) }
  have hanswer : ∃ h', h.answer i = some h' ∧ h'.find? i.id = (h.set i').find? i'.id := by
    rw [answer, hwork]
    exact ⟨_, rfl, rfl⟩
  obtain ⟨h', hanswer, hfind⟩ := hanswer
  refine ⟨h', i', Option.bind_eq_some_iff.2 ⟨i, hfound, hanswer⟩, ?_, rfl⟩
  rw [hfind, find?_set, show h.find? i'.id = some i from hfound]
  exact congrArg some (if_pos rfl)

/-- The handler has left its request open and no head has been sent, and there are time and a client
for the response of the host. -/
structure Unanswered (h : Host R ε) (i : Invocation ε) : Prop where
  live : i.exchange.context.deadline.isExpired h.clock = false
  opened : i.exchange.context.phase.isTerminal = false
  fresh : i.exchange.context.headSent = false
  connected : i.exchange.wire.transport.refused = none

theorem account_of_run (hnew : New h₀) (run : Run h₀ events h) (hi : i ∈ h.invocations)
    {transport : Transport} (hsubmitted : .submitted i.id transport ∈ events)
    (hmemory : transport.outgoing = []) :
    ∃ clock head timeout deeds,
      Handling (dispatched clock head timeout i.id transport) deeds i.exchange ∧
        Account transport.sent deeds i.exchange ∧ Holds i.exchange := by
  obtain ⟨t, honly, clock, head, timeout, deeds, hcourse⟩ := handled_of_run hnew run i hi
  obtain rfl := honly _ hsubmitted
  exact ⟨clock, head, timeout, deeds, hcourse, account_of_handling rfl rfl hmemory hcourse,
    holds_of_handling (fun _ => rfl) hcourse⟩

/-- How the host finishes a response. -/
theorem answer_of_account {sent₀ : Bytes} {deeds : List Deed} {r : Outcome Value} {expired : Bool}
    (haccount : Account sent₀ deeds i.exchange) (hholds : Holds i.exchange)
    (hfound : h.find? i.id = some i) (hwork : i.work = .judged r expired) :
    ∃ h' i', h.step (.answer i.id) = some h' ∧ h'.find? i.id = some i' ∧
      i'.exchange.context.phase.isTerminal = true ∧
      (i.exchange.context.deadline.isExpired h.clock = true → i'.sent = i.sent) ∧
      (h.Unanswered i →
        i'.sent = sent₀ ++ (Envelope.ofReturn r).response i.exchange.context.headers) := by
  obtain ⟨h', i', hstep, hfound, hexchange⟩ := step_answer hfound hwork
  have hfinishes := Act.finishes i.clientCancelled r
    { i.exchange with wire := { i.exchange.wire with clock := h.clock } }
  rw [← hexchange] at hfinishes
  refine ⟨h', i', hstep, hfound, hfinishes.isTerminal, fun hlate => ?_, fun hunanswered => ?_⟩
  · exact congrArg Transport.sent (hfinishes.transport_of_late hlate)
  · have hopen := hunanswered.opened
    have hup : i.exchange.context.phase ≠ .upgraded := fun heq => by
      rw [heq] at hopen
      cases hopen
    obtain ⟨-, hout, hsent⟩ := haccount.whole hup
    have hnone : sent deeds = [] := by
      have hresponse := haccount.response
      rw [haccount.standing.fresh hopen hunanswered.fresh] at hresponse
      generalize sent deeds = bytes at hresponse
      cases hresponse
      rfl
    have hanswered := hfinishes.sent_of_awaits ⟨hopen, hunanswered.fresh, hholds hopen,
      hunanswered.live, hout, hunanswered.connected⟩
    rw [Envelope.bytes_responded] at hanswered
    rw [Invocation.sent, hanswered, hsent, hnone, List.append_nil]

/-- **How a response ends.**  A client over an in-memory connection gets one response at most,
whatever the handler does with its request, and whenever its time runs out or its caller cancels.
When the handler has returned, the host can finish the response, and the request is over then.  If
the deadline has passed, this adds nothing; if there is no response yet, the client gets the one
that carries the envelope of the result, behind the fields that the handler has set. -/
theorem ending_of_run {config : HostConfig} {reachable : Database.Target → Bool}
    (hbuilt : ofConfig config reachable = .ok h₀) {handlers : Record (Handler ε)}
    (run : Run { h₀ with handlers } events h) (hi : i ∈ h.invocations) {transport : Transport}
    (hsubmitted : .submitted i.id transport ∈ events) (hmemory : transport.outgoing = []) :
    (∃ clock head timeout deeds,
      Handling (dispatched clock head timeout i.id transport) deeds i.exchange ∧
        Response (sendings deeds) (sent deeds) ∧
        (∀ d ∈ deeds, d.call.isOnSocket = false →
          d.after.wire.transport.sent = d.before.wire.transport.sent ++ d.sent) ∧
        (i.exchange.context.phase ≠ .upgraded → i.sent = transport.sent ++ sent deeds)) ∧
      ∀ r expired, i.work = .judged r expired →
        ∃ h' i', h.step (.answer i.id) = some h' ∧ h'.find? i.id = some i' ∧
          i'.exchange.context.phase.isTerminal = true ∧
          (i.exchange.context.deadline.isExpired h.clock = true → i'.sent = i.sent) ∧
          (h.Unanswered i → i'.sent =
            transport.sent ++ (Envelope.ofReturn r).response i.exchange.context.headers) := by
  obtain ⟨hnew, rfl⟩ := new_of_ofConfig hbuilt handlers
  obtain ⟨clock, head, timeout, deeds, hcourse, haccount, hholds⟩ :=
    account_of_run hnew run hi hsubmitted hmemory
  refine ⟨⟨clock, head, timeout, deeds, hcourse, haccount.response,
    fun d hd => (haccount.exact d hd).own, fun hup => (haccount.whole hup).2.2⟩, ?_⟩
  exact fun r expired hwork =>
    answer_of_account haccount hholds (find?_of_mem (run.sound hnew).nodup hi) hwork

/-- What is submitted first. -/
theorem submitted_of_play {route : String} {head : Head} {transport : Transport} {moves : List Move}
    (hplay : h₀.play (.submit route head transport :: moves) = some (events, h)) :
    .submitted (h₀.requests + 1) transport ∈ events := by
  rw [play] at hplay
  split at hplay
  · rename_i id h₁ hsubmit
    obtain ⟨rfl, -⟩ := submit_eq_ok hsubmit
    obtain ⟨_, -, heq⟩ := Option.map_eq_some_iff.1 hplay
    cases heq
    exact List.mem_cons_self ..
  · cases hplay

theorem judged_of_step (hfound : h.find? i.id = some i) (hstep : h.step (.answer i.id) = some h') :
    ∃ r expired, i.work = .judged r expired := by
  rw [step, hfound] at hstep
  change h.answer i = some h' at hstep
  rw [answer] at hstep
  split at hstep
  · exact ⟨_, _, ‹_›⟩
  · cases hstep

/-- The fields that a handler sets before it returns a text. -/
def ownFields : List (String × String) := [("Content-Type", "text/html"), ("Content-Length", "3")]

/-- The response that its client gets. -/
def labelled : Bytes :=
  Utf8.encode ("HTTP/1.1 200 OK\r\nContent-Type: text/html\r\nContent-Length: 3\r\n" ++
    "Content-Type: text/plain; charset=utf-8\r\nContent-Length: 2\r\n\r\nhi")

/-- The host of such a handler, right before and right behind the end of its response. -/
theorem exists_labelled :
    ∃ (h₀ h h' : Host dialect Unit) (handlers : Record (Handler Unit))
      (events : List (Event dialect Unit))
      (i i' : Invocation Unit),
      ofConfig {} (fun _ => false) = .ok h₀ ∧ Run { h₀ with handlers } events h ∧
        i ∈ h.invocations ∧ .submitted i.id {} ∈ events ∧ h.find? i.id = some i ∧
        h.Unanswered i ∧ i.exchange.context.headers = ownFields ∧
        h.step (.answer i.id) = some h' ∧ h'.find? i.id = some i' ∧ i'.sent = labelled := by
  let h₀ : Host dialect Unit :=
    { config := {}, registry := { reachable := fun _ => false }, free := 8 }
  let handler : Handler Unit :=
    .request (.setHeader "Content-Type" "text/html") fun _ =>
      .request (.setHeader "Content-Length" "3") fun _ => .done (.ok (.str "hi"))
  let moves : List Move := .submit "labelled" (.new "GET" "/") {} ::
    [.enqueue 1, .assign 1, .start 1, .act 1, .act 1, .act 1, .act 1, .act 1, .judge 1].map .step
  let unanswered (h : Host dialect Unit) (i : Invocation Unit) : Bool :=
    i.exchange.context.deadline.isExpired h.clock = false ∧
      i.exchange.context.phase.isTerminal = false ∧ i.exchange.context.headSent = false ∧
      i.exchange.wire.transport.refused.isNone ∧ i.exchange.context.headers = ownFields
  have hany : (Host.play { h₀ with handlers := [("labelled", handler)] } moves).any (fun r =>
      (r.2.find? 1).any (unanswered r.2) &&
        ((r.2.step (.answer 1)).bind (·.find? 1)).any (·.sent = labelled)) = true := by
    decide +kernel
  obtain ⟨⟨events, h⟩, hplay, hboth⟩ := (Option.any_eq_true ..).1 hany
  obtain ⟨hnow, hthen⟩ := Bool.and_eq_true_iff.1 hboth
  obtain ⟨i, hfound, hunanswered⟩ := (Option.any_eq_true ..).1 hnow
  obtain ⟨i', hfind, hsent⟩ := (Option.any_eq_true ..).1 hthen
  obtain ⟨h', hstep, hfind⟩ := Option.bind_eq_some_iff.1 hfind
  have hid := id_of_find? hfound
  simp only [unanswered, Option.isNone_iff_eq_none, decide_eq_true_eq] at hunanswered hsent
  obtain ⟨hlive, hopen, hfresh, hconnected, hheaders⟩ := hunanswered
  rw [← hid] at hfound hstep hfind
  exact ⟨h₀, h, h', _, events, i, i', rfl, Run.start.of_play hplay, mem_of_find? hfound,
    hid ▸ submitted_of_play hplay, hfound, ⟨hlive, hopen, hfresh, hconnected⟩, hheaders, hstep,
    hfind, hsent⟩

/-- A text is answered with its envelope behind the fields of its handler. -/
theorem ending_of_run_labelled :
    ∃ (h₀ h h' : Host dialect Unit) (handlers : Record (Handler Unit))
      (events : List (Event dialect Unit))
      (i i' : Invocation Unit) (r : Outcome Value) (expired : Bool),
      ofConfig {} (fun _ => false) = .ok h₀ ∧ Run { h₀ with handlers } events h ∧
        i.work = .judged r expired ∧ h.step (.answer i.id) = some h' ∧
        h'.find? i.id = some i' ∧ i'.exchange.context.phase.isTerminal = true ∧
        i'.sent = (Envelope.ofReturn r).response ownFields ∧ i'.sent = labelled := by
  obtain ⟨h₀, h, h', handlers, events, i, i', hbuilt, run, hi, hsubmitted, hfound, hunanswered,
    hheaders, hstep, hfind, hlabelled⟩ := exists_labelled
  obtain ⟨r, expired, hwork⟩ := judged_of_step hfound hstep
  obtain ⟨-, hends⟩ := ending_of_run hbuilt run hi hsubmitted rfl
  obtain ⟨h₁, i₁, hstep₁, hfind₁, hterminal, -, hsent⟩ := hends r expired hwork
  obtain rfl : h' = h₁ := Option.some.inj (hstep.symm.trans hstep₁)
  obtain rfl : i' = i₁ := Option.some.inj (hfind.symm.trans hfind₁)
  refine ⟨h₀, h, h', handlers, events, i, i', r, expired, hbuilt, run, hwork, hstep, hfind,
    hterminal, ?_, hlabelled⟩
  rw [hsent hunanswered, hheaders]
  exact List.nil_append _

/-- The values of the fields of this name in the head of a response. -/
def fieldValues (name : String) (response : Bytes) : List Bytes :=
  ((response.splitOn 10).takeWhile (· ≠ [13])).filterMap fun line =>
    ((Utf8.encode (name ++ ": ")).isPrefixOf? line).map List.dropLast

/-- The fields of the envelope need not be the only ones of their names in its response. -/
theorem fields_not_only_of_envelope :
    ¬ ∀ (h₀ h h' : Host dialect Unit) (handlers : Record (Handler Unit))
      (events : List (Event dialect Unit))
      (i i' : Invocation Unit) (r : Outcome Value) (expired : Bool),
      ofConfig {} (fun _ => false) = .ok h₀ → Run { h₀ with handlers } events h →
      i ∈ h.invocations → .submitted i.id {} ∈ events → i.work = .judged r expired →
      h.Unanswered i → h.step (.answer i.id) = some h' → h'.find? i.id = some i' →
      fieldValues "Content-Type" i'.sent = [Utf8.encode (Envelope.ofReturn r).contentType] ∧
        fieldValues "Content-Length" i'.sent =
          [Utf8.encode (toString (Envelope.ofReturn r).body.length)] := by
  intro hall
  obtain ⟨h₀, h, h', handlers, events, i, i', hbuilt, run, hi, hsubmitted, hfound, hunanswered, -,
    hstep, hfind, hlabelled⟩ := exists_labelled
  obtain ⟨r, expired, hwork⟩ := judged_of_step hfound hstep
  obtain ⟨htypes, -⟩ := hall h₀ h h' handlers events i i' r expired hbuilt run hi hsubmitted hwork
    hunanswered hstep hfind
  have htwo : (fieldValues "Content-Type" i'.sent).length = 2 := by
    rw [hlabelled]
    decide +kernel
  simp [htypes] at htwo

end Host

end ScriptHost
