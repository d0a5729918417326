import ScriptHost.Host.Invocation
import ScriptHost.Proofs.Stream.Request
import Mathlib.Logic.Relation

/-!
# What calls are made of

Whatever a call does to its request, it does in small moves: it changes what the context says, it
starts the time of the request anew, it reads or writes under the deadline of the request, or it
cancels the token.  So a law of requests that is reflexive, transitive and kept by each of these
moves is kept by every call, and nothing needs to be said of the calls themselves.

* `Exchange.Moves`, `Exchange.Goes` — one move, and any number of them.
* `Request.goes_act`, `Act.goes_finishResponse` — a call that is not one on the WebSocket is made of
  moves, and so is the end of a response.
-/

set_option autoImplicit false

namespace ScriptHost

namespace Exchange

/-- A move of a request. -/
inductive Moves (x : Exchange) : Exchange → Prop
  /-- The context takes note of something, or the connection becomes a WebSocket. -/
  | notes (c : Context) (s : Option WebSocket) : c.token = x.context.token →
      c.deadline = x.context.deadline → Moves x { x with context := c, socket := s }
  | restarts (ms : Int) : Moves x { x with context := { x.context with
      deadline := (Deadline.ofTimeout x.wire.clock ms).withCancel x.context.token } }
  | reads (operation : String) (size : Nat) :
      Moves x { x with wire := (x.wire.receive x.context.deadline operation size).2 }
  | writes (operation : String) (data : Bytes) :
      Moves x { x with wire := (x.wire.send x.context.deadline operation data).2 }
  | cancels :
      Moves x { x with wire := { x.wire with clock := x.wire.clock.cancel x.context.token } }

/-- Any number of moves. -/
def Goes : Exchange → Exchange → Prop := Relation.ReflTransGen Moves

instance : Std.Refl Goes where
  refl _ := .refl

instance : IsTrans Exchange Goes where
  trans _ _ _ h h' := h.trans h'

theorem Moves.goes {x x' : Exchange} (h : x.Moves x') : x.Goes x' := .single h

theorem goes_of_context {x : Exchange} {c : Context} (htoken : c.token = x.context.token)
    (hdeadline : c.deadline = x.context.deadline) : x.Goes { x with context := c } :=
  (Moves.notes c x.socket htoken hdeadline).goes

end Exchange

namespace Act

open Exchange

variable {α : Type}

theorem goes_modify {f : Context → Context}
    (hf : ∀ c : Context, (f c).token = c.token ∧ (f c).deadline = c.deadline) :
    Keeps Goes (modify f) := fun x => goes_of_context (hf x.context).1 (hf x.context).2

theorem goes_ensureOpen (operation : String) : Keeps Goes (ensureOpen operation) := by
  refine keeps_context.bind fun c => ?_
  split
  · exact keeps_throw _
  · exact keeps_pure _

theorem goes_touchHead : Keeps Goes touchHead := by
  refine keeps_context.bind fun c => ?_
  split
  · exact Keeps.bind (goes_modify fun _ => ⟨rfl, rfl⟩) fun _ => keeps_pure _
  · exact keeps_pure _

/-- Using the transport is one move, and noting a timeout another. -/
theorem goes_transfer {io : Io α} {x : Exchange} (hio : x.Moves { x with wire := (io x.wire).2 }) :
    x.Goes (transfer io x).2 := by
  rcases transfer_cases io x with ⟨e, h⟩ | ⟨-, ⟨e, w, hw, h⟩ | ⟨v, w, hw, h⟩⟩ <;> rw [h]
  · exact refl_of Goes x
  · rw [hw] at hio
    exact trans_of Goes hio.goes (goes_of_context (by split <;> rfl) (by split <;> rfl))
  · rw [hw] at hio
    exact hio.goes

theorem goes_readBody (max : Nat) : Keeps Goes (readBody max) := by
  intro x
  rcases ensureOpen_cases "read the body" _ x with ⟨e, h⟩ | ⟨-, h⟩ <;> rw [readBody, h]
  · exact refl_of Goes x
  · rw [context_bind]
    split
    · exact refl_of Goes x
    · exact rel_bind (goes_transfer (.reads _ _)) fun _ =>
        Keeps.bind (goes_modify fun _ => ⟨rfl, rfl⟩) fun _ => keeps_pure _

theorem goes_reader : Keeps Goes reader :=
  (goes_ensureOpen _).bind fun _ => goes_modify fun _ => ⟨rfl, rfl⟩

theorem goes_body : Keeps Goes body :=
  goes_reader.bind fun _ => keeps_context.bind fun _ => keeps_readRest goes_readBody _ _

theorem goes_doRead (r : Request.Read) : Keeps Goes (Request.doRead r) :=
  keeps_doRead goes_readBody r

theorem goes_setStatus (status : Nat) : Keeps Goes (setStatus status) := by
  refine keeps_context.bind fun c => ?_
  split
  · exact keeps_throw _
  · exact goes_modify fun _ => ⟨rfl, rfl⟩

theorem goes_setHeader (name value : String) : Keeps Goes (setHeader name value) := by
  refine keeps_context.bind fun c => ?_
  split
  · exact keeps_throw _
  · exact goes_modify fun _ => ⟨rfl, rfl⟩

theorem goes_write (data : Bytes) : Keeps Goes (write data) := by
  intro x
  rcases ensureOpen_cases "write" _ x with ⟨e, h⟩ | ⟨-, h⟩ <;> rw [write, h]
  · exact refl_of Goes x
  · rw [context_bind]
    exact rel_bind (goes_transfer (.writes _ _)) fun _ =>
      Keeps.bind (goes_modify fun _ => ⟨rfl, rfl⟩) fun _ => keeps_pure _

theorem goes_flush : Keeps Goes flush := by
  refine (goes_ensureOpen _).bind fun _ => keeps_context.bind fun c => ?_
  split
  · exact keeps_throw _
  · exact keeps_pure _

theorem goes_respond (status : Nat) (type : String) (data : Bytes) :
    Keeps Goes (respond status type data) := by
  intro x
  rcases ensureOpen_cases "respond" _ x with ⟨e, h⟩ | ⟨-, h⟩ <;> rw [respond, h]
  · exact refl_of Goes x
  · rw [context_bind]
    split
    · exact refl_of Goes x
    · -- the status is noted first, and then the head goes out with the body
      refine rel_bind (goes_of_context rfl rfl) fun _ y => ?_
      rw [context_bind]
      exact rel_bind (goes_transfer (.writes _ _)) fun _ => goes_modify fun _ => ⟨rfl, rfl⟩

theorem goes_upgrade : Keeps Goes upgrade := by
  intro x
  rcases ensureOpen_cases "upgrade" _ x with ⟨e, h⟩ | ⟨-, h⟩ <;> rw [upgrade, h]
  · exact refl_of Goes x
  · rw [context_bind]
    split
    · exact refl_of Goes x
    · dsimp only
      split
      · exact refl_of Goes x
      · rcases x.context.head.header? "sec-websocket-key" with _ | key
        · exact refl_of Goes x
        · exact rel_bind (goes_transfer (.writes _ _)) fun _ y =>
            (Moves.notes { y.context with phase := .upgraded, attached := false }
              (some { writeDeadline := x.context.deadline }) rfl rfl).goes

theorem goes_complete : Keeps Goes complete := by
  refine keeps_context.bind fun c => ?_
  dsimp only
  split
  · exact keeps_pure _
  · split
    · exact keeps_throw _
    · exact goes_modify fun _ => ⟨rfl, rfl⟩

theorem goes_abort : Keeps Goes abort := goes_modify fun c => by split <;> exact ⟨rfl, rfl⟩

theorem goes_cancelToken : Keeps Goes cancelToken := fun _ => Moves.cancels.goes

theorem goes_markTimedOut : Keeps Goes markTimedOut :=
  goes_cancelToken.bind fun _ => goes_modify fun c => by split <;> exact ⟨rfl, rfl⟩

theorem goes_resetTimeout (ms : Int) : Keeps Goes (resetTimeout ms) := fun _ =>
  (Moves.restarts ms).goes

/-- **The end of a response** is made of moves. -/
theorem goes_finishResponse (clientCancelled : Bool) (r : Outcome Value) :
    Keeps Goes (finishResponse clientCancelled r) := by
  refine keeps_context.bind fun c => keeps_clock.bind fun now => ?_
  dsimp only
  split
  · split
    · exact goes_abort
    · exact goes_markTimedOut
  · split
    · exact keeps_pure _
    · split
      · exact goes_complete.tryCatch fun _ => keeps_pure _
      · refine (goes_respond _ _ _).tryCatch fun _ => keeps_context.bind fun c => ?_
        split
        · exact goes_abort
        · exact keeps_pure _

end Act

namespace Request

open Act Exchange

/-- **Every call** but those on the WebSocket is made of moves. -/
theorem goes_act {c : Call} (hc : c.isOnSocket = false) : Keeps Goes (act c) := by
  cases c with
  | phase | isTerminal | returnless => exact keeps_context.return _
  | method | url | path | query | header | cookie | «variable» | pathVariables | head =>
    exact goes_touchHead.return _
  | reader reads => exact goes_reader.bind fun _ => (keeps_doReads goes_readBody reads).return _
  | read r => exact goes_reader.bind fun _ => (goes_doRead r).return _
  | body => exact goes_body.map _
  | setStatus status => exact (goes_setStatus status).return _
  | setHeader name value => exact (goes_setHeader name value).return _
  | write data => exact (goes_write data).map _
  | flush => exact goes_flush.return _
  | respond status type data => exact (goes_respond status type data).return _
  | upgrade => exact goes_upgrade.return _
  | complete => exact goes_complete.return _
  | abort => exact goes_abort.return _
  | markTimedOut => exact goes_markTimedOut.return _
  | resetTimeout ms => exact (goes_resetTimeout ms).return _
  | cancel => exact goes_cancelToken.return _
  | deadline | deadlineFor => exact keeps_context.bind fun _ => keeps_clock.return _
  | receive | send | close | isClosed | writeDeadline => cases hc

end Request

end ScriptHost
