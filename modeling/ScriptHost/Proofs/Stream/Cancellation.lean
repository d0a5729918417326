import ScriptHost.Proofs.Deadline
import ScriptHost.Proofs.Stream.Time
import ScriptHost.Stream.Conversation

/-!
# Cancellation is for good

A request has one token, and its deadline carries it from the first moment on: the deadline that it
is made with does, and so does every other one that it is given later.  So the token needs to be
cancelled only once.  From then on the deadline has passed, and with it every deadline that has ever
been made out of it; nothing sets the request going again, and as whoever reads or writes looks at
the deadline before the first byte, no byte goes either way any more.

* `Deadline.Derived` — the deadlines that are made out of one.
* `Exchange.HandsOut` — the deadlines that a request hands out.
* `Request.Later` — whatever is done to a request, and whatever happens in between.
* `Request.inert_of_cancelled` — a request that has been cancelled stays so.
-/

set_option autoImplicit false

namespace ScriptHost

/-! ## Deadlines and their tokens -/

namespace Deadline

variable {d e : Deadline} {t : Token}

theorem isExpired_of_mem {c : Clock} (ht : t ∈ d.tokens) (hcancelled : c.isCancelled t = true) :
    d.isExpired c = true := by
  rw [isExpired, isCancelled, List.any_eq_true.2 ⟨t, ht, hcancelled⟩, Bool.true_or]

/-- The deadlines that are made out of one, by tightening and by adding tokens. -/
inductive Derived (d : Deadline) : Deadline → Prop
  | self : Derived d d
  | tightened {e : Deadline} : Derived d e → ∀ e', Derived d (e.min e')
  | tightening {e : Deadline} : Derived d e → ∀ e', Derived d (Deadline.min e' e)
  | withCancel {e : Deadline} : Derived d e → ∀ t, Derived d (e.withCancel t)

/-- No token gets lost. -/
theorem Derived.tokens (h : Derived d e) (ht : t ∈ d.tokens) : t ∈ e.tokens := by
  induction h with
  | self => exact ht
  | tightened _ _ ih => exact mem_min.2 (.inl ih)
  | tightening _ _ ih => exact mem_min.2 (.inr ih)
  | withCancel _ _ ih => exact mem_withCancel.2 (.inl ih)

end Deadline

theorem Clock.isCancelled_cancel (c : Clock) (t : Token) : (c.cancel t).isCancelled t = true := by
  simp [isCancelled, cancel]

/-! ## Transfers under a deadline that has passed -/

namespace Wire

variable {d : Deadline} {w : Wire}

theorem receive_of_expired (h : d.isExpired w.clock = true) (operation : String) (size : Nat) :
    w.receive d operation size = (.error (.timeout operation), w) := by
  rw [receive, if_pos h]

theorem transport_send_of_expired (h : d.isExpired w.clock = true) (operation : String)
    (data : Bytes) : (w.send d operation data).2.transport = w.transport := by
  rw [send]
  rcases hanswers : w.transport.outgoing with _ | ⟨answer, answers⟩ <;>
    rcases data with _ | ⟨b, data⟩ <;> simp only [sendBy, h, if_true] <;> rw [← hanswers]

end Wire

/-! ## Moves of a request that has been cancelled -/

namespace Exchange

variable {x x' : Exchange}

/-- The deadline of the request carries its token. -/
def Carries (x : Exchange) : Prop := x.context.token ∈ x.context.deadline.tokens

/-- The deadlines that a request hands out: its own one, and those of single calls. -/
inductive HandsOut (x : Exchange) : Deadline → Prop
  | own : HandsOut x x.context.deadline
  | ofCall (ms : Int) : HandsOut x (x.context.deadlineFor x.wire.clock ms)

theorem carries_new (clock : Clock) (head : Head) (timeout : Int) (token : Token) (holder : Holder)
    (wire : Wire) :
    Carries { context := .new clock head timeout token holder, wire } :=
  Deadline.mem_withCancel.2 (.inr rfl)

theorem HandsOut.mem {d : Deadline} (h : x.HandsOut d) (hx : x.Carries) :
    x.context.token ∈ d.tokens := by
  cases h with
  | own => exact hx
  | ofCall ms => exact Deadline.mem_min.2 (.inr hx)

theorem Carries.of_context (hx : x.Carries) (h : x'.context = x.context) : x'.Carries := by
  rwa [Carries, h]

theorem Moves.carries (h : x.Moves x') (hx : x.Carries) : x'.Carries := by
  cases h with
  | notes c s htoken hdeadline =>
    rw [Carries] at hx ⊢
    dsimp only
    rwa [htoken, hdeadline]
  | restarts ms => exact Deadline.mem_withCancel.2 (.inr rfl)
  | reads => exact hx
  | writes => exact hx
  | cancels => exact hx

theorem Goes.carries (h : x.Goes x') (hx : x.Carries) : x'.Carries := by
  induction h with
  | refl => exact hx
  | tail _ hmove ih => exact hmove.carries ih

/-- A move of a request that has been cancelled leaves the transport as it is. -/
theorem Moves.transport (h : x.Moves x') (hx : x.Carries)
    (hcancelled : x.wire.clock.isCancelled x.context.token = true) :
    x'.wire.transport = x.wire.transport := by
  have hexpired := Deadline.isExpired_of_mem hx hcancelled
  cases h with
  | notes => rfl
  | restarts => rfl
  | reads operation size =>
    dsimp only
    rw [Wire.receive_of_expired hexpired]
  | writes operation data => exact Wire.transport_send_of_expired hexpired operation data
  | cancels => rfl

theorem Onward.isCancelled (h : x.Onward x')
    (hcancelled : x.wire.clock.isCancelled x.context.token = true) :
    x'.wire.clock.isCancelled x'.context.token = true := by
  rw [h.token]
  exact h.clock.isCancelled hcancelled

theorem Goes.transport (h : x.Goes x') (hx : x.Carries)
    (hcancelled : x.wire.clock.isCancelled x.context.token = true) :
    x'.wire.transport = x.wire.transport := by
  induction h with
  | refl => rfl
  | tail hgoes hmove ih =>
    have hgoes : x.Goes _ := hgoes
    exact (hmove.transport (hgoes.carries hx) (hgoes.onward.isCancelled hcancelled)).trans ih

end Exchange

/-! ## Runs -/

namespace Request

open Exchange

variable {x x' y : Exchange}

/-- One thing that is done to a request, by its handler or by the host, or that happens to it.  In
between anything may become of the wire, but the clock only goes on. -/
inductive Steps (x : Exchange) : Exchange → Prop
  | call (c : Call) : Steps x (Request.call x c).2
  | readOn (r : Read) : Steps x (doRead r x).2
  | finish (clientCancelled : Bool) (r : Outcome Value) :
      Steps x (Act.finishResponse clientCancelled r x).2
  | meanwhile {x' : Exchange} : x'.context = x.context → x.wire.clock.Precedes x'.wire.clock →
      Steps x x'

/-- Whatever is done to a request. -/
def Later : Exchange → Exchange → Prop := Relation.ReflTransGen Steps

theorem Steps.onward (h : Steps x x') : x.Onward x' := by
  cases h with
  | call c => exact onward_act c x
  | readOn r => exact (Act.goes_doRead r x).onward
  | finish clientCancelled r => exact Act.onward_finishResponse clientCancelled r x
  | meanwhile hcontext hclock => exact ⟨hclock, congrArg Context.token hcontext⟩

theorem Steps.carries (h : Steps x x') (hx : x.Carries) : x'.Carries := by
  cases h with
  | call c =>
    cases hc : c.isOnSocket with
    | false => exact (goes_act hc x).carries hx
    | true => exact hx.of_context (onSocket_act hc x).1
  | readOn r => exact (Act.goes_doRead r x).carries hx
  | finish clientCancelled r => exact (Act.goes_finishResponse clientCancelled r x).carries hx
  | meanwhile hcontext => exact hx.of_context hcontext

theorem Later.onward (h : Later x x') : x.Onward x' := by
  induction h with
  | refl => exact refl_of Onward x
  | tail _ hstep ih => exact trans_of Onward ih hstep.onward

theorem Later.carries (h : Later x x') (hx : x.Carries) : x'.Carries := by
  induction h with
  | refl => exact hx
  | tail _ hstep ih => exact hstep.carries ih

/-- Two calls cancel the token of the request. -/
theorem isCancelled_call (x : Exchange) {c : Call} (hc : c = .cancel ∨ c = .markTimedOut) :
    (call x c).2.wire.clock.isCancelled x.context.token = true := by
  rcases hc with rfl | rfl <;> exact x.wire.clock.isCancelled_cancel x.context.token

/-- **A request that has been cancelled stays so.**  Whoever has cancelled the token of a request,
and whatever is done to the request afterwards: every deadline that it has handed out before or
hands out from then on has passed, and so has every deadline that is made out of one of these; and
no call on the request, no read from its body and no end of its response moves a byte in either
direction. -/
theorem inert_of_cancelled {clock : Clock} {head : Head} {timeout : Int} {token : Token}
    {holder : Holder} {wire : Wire}
    (hx : Later { context := .new clock head timeout token holder, wire } x)
    (hcancelled : x.wire.clock.isCancelled token = true) (hy : Later x y) :
    (∀ z, Later { context := .new clock head timeout token holder, wire } z → Later z y →
      ∀ d, z.HandsOut d → ∀ e, d.Derived e → e.isExpired y.wire.clock = true) ∧
      (∀ c, c.isOnSocket = false → (call y c).2.wire.transport = y.wire.transport) ∧
      (∀ r, (doRead r y).2.wire.transport = y.wire.transport) ∧
      ∀ clientCancelled r,
        (Act.finishResponse clientCancelled r y).2.wire.transport = y.wire.transport := by
  have hnew := carries_new clock head timeout token holder wire
  have htoken {z : Exchange}
      (hz : Later { context := .new clock head timeout token holder, wire } z) :
      z.context.token = token := hz.onward.token
  have hlate : y.wire.clock.isCancelled token = true := hy.onward.clock.isCancelled hcancelled
  have hcarries : y.Carries := hy.carries (hx.carries hnew)
  have hinert {y' : Exchange} (h : y.Goes y') : y'.wire.transport = y.wire.transport := by
    refine h.transport hcarries ?_
    rwa [htoken (hx.trans hy)]
  refine ⟨fun z hz _ d hd e he => ?_, fun c hc => hinert (goes_act hc y),
    fun r => hinert (Act.goes_doRead r y), fun b r => hinert (Act.goes_finishResponse b r y)⟩
  have hmem := hd.mem (hz.carries hnew)
  rw [htoken hz] at hmem
  exact Deadline.isExpired_of_mem (he.tokens hmem) hlate

/-- A request is cancelled behind the first piece of its response and then given all the time it
wants: the second piece is not sent, and the deadline of a call from before the cancellation has
passed. -/
theorem inert_of_cancelled_restarted :
    let x₀ := (Conversation.start (.new "GET" "/") 1000 {}).exchange
    let x := (call (call x₀ (.write [1])).2 .cancel).2
    let y := (call x (.resetTimeout (-1))).2
    Later x₀ x ∧ x.wire.clock.isCancelled ⟨1⟩ = true ∧ Later x y ∧
      y.context.deadline.at? = none ∧ y.context.phase.isTerminal = false ∧
      (∀ e, (x₀.context.deadlineFor x₀.wire.clock 5).Derived e → e.isExpired y.wire.clock = true) ∧
      (call y (.write [2])).2.wire.transport = y.wire.transport ∧
      y.wire.transport.sent =
        Utf8.encode "HTTP/1.1 200 OK\r\nConnection: close\r\n\r\n" ++ [1] := by
  intro x₀ x y
  have hfirst : Later x₀ (call x₀ (.write [1])).2 := .single (.call (.write [1]))
  have hx : Later x₀ x := .tail hfirst (.call .cancel)
  have hy : Later x y := .single (.call (.resetTimeout (-1)))
  have htoken : (call x₀ (.write [1])).2.context.token = ⟨1⟩ := hfirst.onward.token
  have hcancelled : x.wire.clock.isCancelled ⟨1⟩ = true :=
    htoken ▸ isCancelled_call (call x₀ (.write [1])).2 (.inl rfl)
  have h := inert_of_cancelled hx hcancelled hy
  exact ⟨hx, hcancelled, hy, by decide +kernel, by decide +kernel,
    h.1 x₀ .refl (hx.trans hy) _ (.ofCall 5), h.2.1 (.write [2]) rfl, by decide +kernel⟩

end Request

end ScriptHost
