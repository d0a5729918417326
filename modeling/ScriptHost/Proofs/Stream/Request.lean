import ScriptHost.Stream.Request
import ScriptHost.Proofs.Stream.Writing
import Mathlib.Order.Defs.Unbundled

/-!
# What a call does to its request

There are three dozen calls, and most of them have no effect that their callers can tell from a look
at the context.  This file says once and for all what each of them may do, so that a law of all runs
is left with four kinds of calls.

* `Exchange.Quiet` — the request may come further and something may be read for it, but nothing is
  sent.  The relation is reflexive and transitive, so a computation is quiet when its parts are
  (`Act.Keeps`).
* `Sending` — what a call has sent when it succeeds, and `Sending.after`, what that makes of its
  context.
* `Request.Does`, `Request.does` — a call is quiet, or it has sent something, or it has dropped the
  transport, or it is one on the WebSocket, which leaves the context alone.
* `Request.Handling` — a request in the hands of its handler: calls in any order, between which time
  passes, tokens are cancelled, and the peer sends or goes away.
-/

set_option autoImplicit false

namespace ScriptHost

/-! ## Phases -/

namespace Phase

/-- How far a request has come. -/
def rank : Phase → Nat
  | created => 0
  | headerRead => 1
  | bodyStreaming => 2
  | upgraded | completed | timedOut | aborted => 3

/-- A request may come from the first phase to the second: these are the same, or the second is
further on.  Nothing is further on than a terminal phase. -/
def Leads (p q : Phase) : Prop := p = q ∨ p.isTerminal = false ∧ p.rank < q.rank

theorem Leads.refl (p : Phase) : p.Leads p := .inl rfl

theorem Leads.trans {p q r : Phase} (h : p.Leads q) (h' : q.Leads r) : p.Leads r := by
  rcases h with rfl | ⟨hp, hlt⟩
  · exact h'
  · rcases h' with rfl | ⟨-, hlt'⟩
    · exact .inr ⟨hp, hlt⟩
    · exact .inr ⟨hp, Nat.lt_trans hlt hlt'⟩

theorem Leads.eq_of_isTerminal {p q : Phase} (h : p.Leads q) (hp : p.isTerminal = true) :
    p = q := by
  rcases h with h | ⟨hopen, -⟩
  · exact h
  · rw [hp] at hopen
    cases hopen

theorem leads_of_open {p q : Phase} (hp : p.isTerminal = false) (hq : q.isTerminal = true) :
    p.Leads q := by
  refine .inr ⟨hp, ?_⟩
  cases p <;> cases hp <;> cases q <;> cases hq <;> decide

theorem leads_bodyStreaming {p : Phase} (hp : p.isTerminal = false) : p.Leads bodyStreaming := by
  cases p
  case bodyStreaming => exact .refl _
  case created => exact .inr ⟨rfl, by decide⟩
  case headerRead => exact .inr ⟨rfl, by decide⟩
  all_goals cases hp

end Phase

/-! ## Quiet changes -/

namespace Exchange

/-- Nothing can be sent in part: the request is over, or its transport takes a whole piece of data
or none of it. -/
def Settled (x : Exchange) : Prop :=
  x.context.phase.isTerminal = true ∨ x.wire.transport.outgoing = []

theorem Settled.outgoing {x : Exchange} (h : x.Settled)
    (hopen : x.context.phase.isTerminal = false) : x.wire.transport.outgoing = [] := by
  rcases h with h | h
  · rw [hopen] at h
    cases h
  · exact h

/-- A change that sends nothing. -/
structure Quiet (x x' : Exchange) : Prop where
  phase : x.context.phase.Leads x'.context.phase
  headSent : x'.context.headSent = x.context.headSent
  attached : x'.context.attached = x.context.attached
  socket : x'.socket = x.socket
  transport : x.Settled → x'.wire.transport =
    { x.wire.transport with incoming := x'.wire.transport.incoming }

namespace Quiet

theorem settled {x x' : Exchange} (h : Quiet x x') (hx : x.Settled) : x'.Settled := by
  rcases hx with hx | hx
  · left
    rwa [← h.phase.eq_of_isTerminal hx]
  · right
    rw [h.transport (.inr hx)]
    exact hx

instance : Std.Refl Quiet where
  refl _ := ⟨.refl _, rfl, rfl, rfl, fun _ => rfl⟩

instance : IsTrans Exchange Quiet where
  trans x x' _ h h' :=
    { phase := h.phase.trans h'.phase
      headSent := h'.headSent.trans h.headSent
      attached := h'.attached.trans h.attached
      socket := h'.socket.trans h.socket
      transport := fun hx => by rw [h'.transport (h.settled hx), h.transport hx] }

/-- A change of the context that comes no further and keeps the head of the response where it is. -/
theorem of_context {x : Exchange} {c : Context} (hphase : x.context.phase.Leads c.phase)
    (hsent : c.headSent = x.context.headSent) (hattached : c.attached = x.context.attached) :
    Quiet x { x with context := c } :=
  ⟨hphase, hsent, hattached, rfl, fun _ => rfl⟩

theorem of_clock (x : Exchange) (c : Clock) :
    Quiet x { x with wire := { x.wire with clock := c } } :=
  ⟨.refl _, rfl, rfl, rfl, fun _ => rfl⟩

end Quiet

/-- A change that is made through the WebSocket, if there is one. -/
def OnSocket (x x' : Exchange) : Prop := x'.context = x.context ∧ (x.socket = none → x' = x)

namespace OnSocket

instance : Std.Refl OnSocket where
  refl _ := ⟨rfl, fun _ => rfl⟩

instance : IsTrans Exchange OnSocket where
  trans _ x' _ h h' := by
    refine ⟨h'.1.trans h.1, fun hnone => ?_⟩
    obtain rfl := h.2 hnone
    exact h'.2 hnone

end OnSocket

end Exchange

/-! ## Computations on a request -/

namespace Act

open Exchange

variable {α β : Type} {R : Exchange → Exchange → Prop}

theorem bind_apply (a : Act α) (f : α → Act β) (x : Exchange) :
    (a >>= f) x =
      match a x with
      | (.ok v, x') => f v x'
      | (.error e, x') => (.error e, x') := by
  show ExceptT.bindCont f (a x).1 (a x).2 = _
  rcases a x with ⟨e | a, σ'⟩ <;> rfl

theorem map_apply (f : α → β) (a : Act α) (x : Exchange) :
    (f <$> a) x = ((a x).1.map f, (a x).2) := by
  rw [← bind_pure_comp, bind_apply]
  rcases a x with ⟨e | v, x'⟩ <;> rfl

theorem tryCatch_apply (a : Act α) (f : Failure → Act α) (x : Exchange) :
    tryCatch a f x =
      match a x with
      | (.ok v, x') => (.ok v, x')
      | (.error e, x') => f e x' := by
  change (ExceptT.tryCatch a f : Act α) x = _
  rw [ExceptT.tryCatch, ExceptT.mk]
  change (StateT.bind a _ : StateM Exchange (Outcome α)) x = _
  rw [StateT.bind]
  rcases a x with ⟨e | v, x'⟩ <;> rfl

theorem context_bind (f : Context → Act β) (x : Exchange) :
    (context >>= f) x = f x.context x := rfl

theorem modify_bind (g : Context → Context) (f : Unit → Act β) (x : Exchange) :
    (modify g >>= f) x = f () { x with context := g x.context } := rfl

theorem ensureOpen_bind (operation : String) (f : Unit → Act β) {x : Exchange}
    (hopen : x.context.phase.isTerminal = false) : (ensureOpen operation >>= f) x = f () x := by
  rw [bind_apply, ensureOpen, context_bind, hopen]
  rfl

theorem ensureOpen_cases (operation : String) (f : Unit → Act β) (x : Exchange) :
    (∃ e, (ensureOpen operation >>= f) x = (.error e, x)) ∨
      x.context.phase.isTerminal = false ∧ (ensureOpen operation >>= f) x = f () x := by
  cases hphase : x.context.phase.isTerminal with
  | true =>
    rw [bind_apply, ensureOpen, context_bind, hphase]
    exact .inl ⟨_, rfl⟩
  | false => exact .inr ⟨rfl, ensureOpen_bind operation f hphase⟩

/-- A computation that relates each request to what becomes of it, also when it fails. -/
def Keeps (R : Exchange → Exchange → Prop) (a : Act α) : Prop := ∀ x, R x (a x).2

section

variable [Std.Refl R]

theorem keeps_pure (v : α) : Keeps R (pure v : Act α) := fun x => refl_of R x

theorem keeps_throw (e : Failure) : Keeps R (throw e : Act α) := fun x => refl_of R x

theorem keeps_context : Keeps R context := fun x => refl_of R x

theorem keeps_clock : Keeps R clock := fun x => refl_of R x

end

section

variable [IsTrans Exchange R]

theorem rel_bind {a : Act α} {f : α → Act β} {x : Exchange} (ha : R x (a x).2)
    (hf : ∀ v, Keeps R (f v)) : R x ((a >>= f) x).2 := by
  rw [bind_apply]
  rcases h : a x with ⟨e | v, x'⟩
  · rwa [h] at ha
  · rw [h] at ha
    exact trans_of R ha (hf v x')

theorem Keeps.bind {a : Act α} {f : α → Act β} (ha : Keeps R a) (hf : ∀ v, Keeps R (f v)) :
    Keeps R (a >>= f) := fun x => rel_bind (ha x) hf

theorem Keeps.return [Std.Refl R] {a : Act α} (ha : Keeps R a) (f : α → β) :
    Keeps R (a >>= fun v => pure (f v)) := ha.bind fun v => keeps_pure (f v)

theorem Keeps.map [Std.Refl R] {a : Act α} (ha : Keeps R a) (f : α → β) : Keeps R (f <$> a) := by
  rw [← bind_pure_comp]
  exact ha.return f

theorem Keeps.tryCatch {a : Act α} {f : Failure → Act α} (ha : Keeps R a)
    (hf : ∀ e, Keeps R (f e)) : Keeps R (tryCatch a f) := by
  intro x
  have hfirst := ha x
  rw [tryCatch_apply]
  rcases h : a x with ⟨e | v, x'⟩ <;> rw [h] at hfirst
  · exact trans_of R hfirst (hf e x')
  · exact hfirst

end

/-! ## Reads from a body

All of them come down to reading at most so many bytes. -/

section

variable [Std.Refl R] [IsTrans Exchange R]

theorem keeps_readRest (hread : ∀ max, Keeps R (readBody max)) (fuel : Nat) (got : Bytes) :
    Keeps R (readRest fuel got) := by
  induction fuel generalizing got with
  | zero => exact keeps_pure _
  | succ fuel ih =>
    refine (hread _).bind fun chunk => ?_
    split
    · exact keeps_pure _
    · exact ih _

theorem keeps_readToEnd (hread : ∀ max, Keeps R (readBody max)) (fuel : Nat) (got : Bytes) :
    Keeps R (readToEnd fuel got) := by
  induction fuel generalizing got with
  | zero => exact keeps_pure _
  | succ fuel ih =>
    intro x
    have hchunk := hread chunkSize x
    rw [readToEnd]
    dsimp only
    rcases h : readBody chunkSize x with ⟨e | chunk, x'⟩ <;> rw [h] at hchunk
    · exact hchunk
    · dsimp only
      split
      · exact hchunk
      · exact trans_of R hchunk (ih _ x')

theorem keeps_doRead (hread : ∀ max, Keeps R (readBody max)) (r : Request.Read) :
    Keeps R (Request.doRead r) := by
  cases r with
  | bytes count => exact (hread count).map _
  | byte => exact ((hread 1).return _).map _
  | remaining => exact keeps_context.return _
  | plain count =>
    intro x
    have hcount := hread count x
    rw [Request.doRead]
    dsimp only
    rcases h : readBody count x with ⟨e | data, x'⟩ <;> rw [h] at hcount <;> exact hcount
  | plainToEnd =>
    refine keeps_context.bind fun c => (keeps_readToEnd hread _ _).bind fun result => ?_
    rcases result with ⟨data, _ | e⟩ <;> exact keeps_pure _

theorem keeps_doReads (hread : ∀ max, Keeps R (readBody max)) (reads : List Request.Read) :
    Keeps R (Request.doReads reads) := by
  induction reads with
  | nil => exact keeps_pure _
  | cons r rest ih => exact fun x => trans_of R (keeps_doRead hread r x) (ih.map _ _)

end

/-! ## Quiet computations -/

theorem quiet_ensureOpen (operation : String) : Keeps Quiet (ensureOpen operation) := by
  refine keeps_context.bind fun c => ?_
  split
  · exact keeps_throw _
  · exact keeps_pure _

theorem quiet_touchHead : Keeps Quiet touchHead := by
  intro x
  rw [touchHead, context_bind]
  split
  · rename_i h
    refine Quiet.of_context (.inr ?_) rfl rfl
    rw [h]
    exact ⟨rfl, Nat.zero_lt_one⟩
  · exact refl_of Quiet x

/-- What using the transport does: nothing if it is gone, and otherwise what is done to the wire; a
timeout is also noted in the context. -/
theorem transfer_cases (io : Io α) (x : Exchange) :
    (∃ e, transfer io x = (.error e, x)) ∨
    x.context.attached = true ∧
      ((∃ e w, io x.wire = (.error e, w) ∧ transfer io x = (.error e, { x with
          wire := w
          context := if e.isTimeout then { x.context with phase := .timedOut } else x.context })) ∨
        ∃ v w, io x.wire = (.ok v, w) ∧ transfer io x = (.ok v, { x with wire := w })) := by
  rw [transfer]
  by_cases hat : x.context.attached = true
  · refine .inr ⟨hat, ?_⟩
    rcases h : io x.wire with ⟨e | v, w⟩
    · exact .inl ⟨e, w, rfl, by rw [if_pos hat]⟩
    · exact .inr ⟨v, w, rfl, by rw [if_pos hat]⟩
  · exact .inl ⟨_, by rw [if_neg hat]⟩

/-- A transfer on a request that is open fails without more ado if its transport is as it was. -/
theorem quiet_of_failed {x : Exchange} (hopen : x.context.phase.isTerminal = false) (e : Failure)
    {w : Wire} (hw : x.wire.transport.outgoing = [] →
      w.transport = { x.wire.transport with incoming := w.transport.incoming }) :
    Quiet x { x with
      wire := w
      context := if e.isTimeout then { x.context with phase := .timedOut } else x.context } := by
  by_cases he : e.isTimeout = true
  · simp only [he, if_true]
    exact ⟨Phase.leads_of_open hopen rfl, rfl, rfl, rfl, fun hx => hw (hx.outgoing hopen)⟩
  · simp only [he, Bool.false_eq_true, if_false]
    exact ⟨.refl _, rfl, rfl, rfl, fun hx => hw (hx.outgoing hopen)⟩

/-- Reading from the transport of a request that is open. -/
theorem quiet_readSome (d : Deadline) (operation : String) (size : Nat) {x : Exchange}
    (hopen : x.context.phase.isTerminal = false) :
    Quiet x (transfer (Io.readSome d operation size) x).2 := by
  have hio : (Io.readSome d operation size x.wire).2.transport = { x.wire.transport with
      incoming := (Io.readSome d operation size x.wire).2.transport.incoming } :=
    Wire.others_receive ..
  rcases transfer_cases (Io.readSome d operation size) x with
    ⟨e, h⟩ | ⟨-, ⟨e, w, hw, h⟩ | ⟨v, w, hw, h⟩⟩ <;> rw [h]
  · exact refl_of Quiet x
  · rw [hw] at hio
    exact quiet_of_failed hopen e fun _ => hio
  · rw [hw] at hio
    exact ⟨.refl _, rfl, rfl, rfl, fun _ => hio⟩

theorem quiet_readBody (max : Nat) : Keeps Quiet (readBody max) := by
  intro x
  rcases ensureOpen_cases "read the body" _ x with ⟨e, h⟩ | ⟨hopen, h⟩ <;> rw [readBody, h]
  · exact refl_of Quiet x
  · rw [context_bind]
    split
    · exact refl_of Quiet x
    · exact rel_bind (quiet_readSome _ _ _ hopen) fun data y =>
        Quiet.of_context (.refl _) rfl rfl

theorem quiet_reader : Keeps Quiet reader := by
  intro x
  rcases ensureOpen_cases "read the body" _ x with ⟨e, h⟩ | ⟨hopen, h⟩ <;> rw [reader, h]
  · exact refl_of Quiet x
  · exact Quiet.of_context (Phase.leads_bodyStreaming hopen) rfl rfl

theorem quiet_body : Keeps Quiet body :=
  quiet_reader.bind fun _ => keeps_context.bind fun _ => keeps_readRest quiet_readBody _ _

theorem quiet_doRead (r : Request.Read) : Keeps Quiet (Request.doRead r) :=
  keeps_doRead quiet_readBody r

theorem quiet_doReads (reads : List Request.Read) : Keeps Quiet (Request.doReads reads) :=
  keeps_doReads quiet_readBody reads

theorem quiet_modify {f : Context → Context} (hf : ∀ c : Context, c.phase.Leads (f c).phase ∧
    (f c).headSent = c.headSent ∧ (f c).attached = c.attached) : Keeps Quiet (modify f) := by
  intro x
  obtain ⟨hphase, hsent, hattached⟩ := hf x.context
  exact Quiet.of_context hphase hsent hattached

theorem quiet_setStatus (status : Nat) : Keeps Quiet (setStatus status) := by
  refine keeps_context.bind fun c => ?_
  split
  · exact keeps_throw _
  · exact quiet_modify fun c => ⟨.refl _, rfl, rfl⟩

theorem quiet_setHeader (name value : String) : Keeps Quiet (setHeader name value) := by
  refine keeps_context.bind fun c => ?_
  split
  · exact keeps_throw _
  · exact quiet_modify fun c => ⟨.refl _, rfl, rfl⟩

theorem quiet_flush : Keeps Quiet flush := by
  refine (quiet_ensureOpen _).bind fun _ => keeps_context.bind fun c => ?_
  split
  · exact keeps_throw _
  · exact keeps_pure _

theorem quiet_complete : Keeps Quiet complete := by
  intro x
  rw [complete, context_bind]
  split
  · exact refl_of Quiet x
  · split
    · exact refl_of Quiet x
    · rename_i hopen
      exact Quiet.of_context (Phase.leads_of_open (Bool.eq_false_iff.2 hopen) rfl) rfl rfl

theorem quiet_cancelToken : Keeps Quiet cancelToken := fun x => Quiet.of_clock x _

theorem quiet_markTimedOut : Keeps Quiet markTimedOut := by
  refine quiet_cancelToken.bind fun _ => quiet_modify fun c => ?_
  split
  · exact ⟨.refl _, rfl, rfl⟩
  · rename_i hopen
    exact ⟨Phase.leads_of_open (Bool.eq_false_iff.2 hopen) rfl, rfl, rfl⟩

theorem quiet_resetTimeout (ms : Int) : Keeps Quiet (resetTimeout ms) :=
  keeps_clock.bind fun _ => quiet_modify fun _ => ⟨.refl _, rfl, rfl⟩

end Act

/-! ## Sending -/

/-- The context with the head of a whole response. -/
def Context.answering (c : Context) (status : Nat) (type : String) : Context :=
  { c with status, headers := c.headers ++ [("Content-Type", type)] }

/-- The field that the context adds itself, behind all others. -/
def Context.ownField : Option Nat → String × String
  | some length => ("Content-Length", toString length)
  | none => ("Connection", "close")

theorem Context.responseHead_eq (c : Context) (length : Option Nat) :
    c.responseHead length =
      "HTTP/1.1 " ++ toString c.status ++ " " ++ reasonPhrase c.status ++ "\r\n" ++
        String.join ((c.headers ++ [ownField length]).map fun (name, value) =>
          name ++ ": " ++ value ++ "\r\n") ++ "\r\n" := by
  rw [List.map_append, String.join_append, ← String.append_assoc]
  cases length with
  | some length => rfl
  | none => rfl

/-- What a call sends that succeeds.  The context is the one at the time of the call. -/
inductive Sending where
  | wrote (c : Context) (data : Bytes)
  | responded (c : Context) (status : Nat) (type : String) (data : Bytes)
  | upgraded (c : Context) (key : String)

namespace Sending

/-- The context in front of what is sent. -/
def before : Sending → Context
  | wrote c _ => c
  | responded c _ _ _ => c
  | upgraded c _ => c

/-- The context behind it. -/
def after : Sending → Context
  | wrote c _ => { c with headSent := true }
  | responded c status type _ =>
    { c.answering status type with headSent := true, phase := .completed }
  | upgraded c _ => { c with phase := .upgraded, attached := false }

/-- The bytes that are sent. -/
def bytes : Sending → Bytes
  | wrote c data => if c.headSent then data else Utf8.encode (c.responseHead none) ++ data
  | responded c status type data =>
    Utf8.encode ((c.answering status type).responseHead (some data.length)) ++ data
  | upgraded _ key => Utf8.encode (Context.upgradeResponse key)

/-- Nothing can follow. -/
def ends : Sending → Bool
  | wrote _ _ => false
  | responded _ _ _ _ => true
  | upgraded _ _ => true

end Sending

namespace Exchange

/-- The change that comes with sending something. -/
structure Sent (x : Exchange) (s : Sending) (x' : Exchange) : Prop where
  opened : x.context.phase.isTerminal = false
  attached : x.context.attached = true
  before : s.before = x.context
  first : s.ends = true → x.context.headSent = false
  after : x'.context = s.after
  socket : x'.context.phase ≠ .upgraded → x'.socket = x.socket
  transport : x.wire.transport.outgoing = [] →
    x'.wire.transport = { x.wire.transport with sent := x.wire.transport.sent ++ s.bytes }

/-- What a call makes of a request that sends something if it succeeds. -/
inductive Sends {α : Type} (x : Exchange) (s? : Option Sending) : Outcome α × Exchange → Prop
  | failed {e : Failure} {x' : Exchange} : Quiet x x' → Sends x s? (.error e, x')
  | done {v : α} {s : Sending} {x' : Exchange} : s? = some s → Sent x s x' → Sends x s? (.ok v, x')

end Exchange

namespace Act

open Exchange

variable {α β : Type}

theorem sends_return {s? : Option Sending} {a : Act α} {x : Exchange} (h : Sends x s? (a x))
    (f : α → β) : Sends x s? ((a >>= fun v => pure (f v)) x) := by
  rw [bind_apply]
  cases hax : a x with
  | mk r x' =>
    rw [hax] at h
    cases h with
    | failed hquiet => exact .failed hquiet
    | done hs hsent => exact .done hs hsent

/-- Writing to the transport of a request that is open. -/
theorem transfer_writeAll (d : Deadline) (operation : String) (data : Bytes) {x : Exchange}
    (hopen : x.context.phase.isTerminal = false) :
    (∃ e x', transfer (Io.writeAll d operation data) x = (.error e, x') ∧ Quiet x x') ∨
    ∃ w, transfer (Io.writeAll d operation data) x = (.ok (), { x with wire := w }) ∧
      x.context.attached = true ∧ (x.wire.transport.outgoing = [] →
        w.transport = { x.wire.transport with sent := x.wire.transport.sent ++ data }) := by
  have hio (hout : x.wire.transport.outgoing = []) :
      (Io.writeAll d operation data x.wire).2.transport =
        if (Io.writeAll d operation data x.wire).1.isOk then
          { x.wire.transport with sent := x.wire.transport.sent ++ data }
        else x.wire.transport :=
    Wire.transport_send hout d operation data
  rcases transfer_cases (Io.writeAll d operation data) x with
    ⟨e, h⟩ | ⟨hat, ⟨e, w, hw, h⟩ | ⟨v, w, hw, h⟩⟩
  · exact .inl ⟨e, x, h, refl_of Quiet x⟩
  · rw [hw] at hio
    exact .inl ⟨e, _, h, quiet_of_failed hopen e fun hout => by rw [hio hout]; rfl⟩
  · rw [hw] at hio
    exact .inr ⟨w, h, hat, hio⟩

theorem sends_write (data : Bytes) (x : Exchange) :
    Sends x (some (.wrote x.context data)) (write data x) := by
  rcases ensureOpen_cases "write" _ x with ⟨e, h⟩ | ⟨hopen, h⟩ <;> rw [write, h]
  · exact .failed (refl_of Quiet x)
  · rw [context_bind, bind_apply]
    rcases transfer_writeAll x.context.deadline "write response"
        (Sending.wrote x.context data).bytes hopen with
      ⟨e, x', h, hquiet⟩ | ⟨w, h, hat, hw⟩ <;> rw [Sending.bytes] at h <;> rw [h]
    · exact .failed hquiet
    · exact .done rfl ⟨hopen, hat, rfl, fun h => Bool.noConfusion h, rfl, fun _ => rfl, hw⟩

theorem sends_respond (status : Nat) (type : String) (data : Bytes) (x : Exchange) :
    Sends x (some (.responded x.context status type data)) (respond status type data x) := by
  rcases ensureOpen_cases "respond" _ x with ⟨e, h⟩ | ⟨hopen, h⟩ <;> rw [respond, h]
  · exact .failed (refl_of Quiet x)
  · rw [context_bind]
    split
    · exact .failed (refl_of Quiet x)
    · rename_i hfirst
      dsimp only
      rw [modify_bind, context_bind, bind_apply]
      -- the head is put together first, and stays when it cannot be sent
      have hhead : Quiet x { x with context := x.context.answering status type } :=
        Quiet.of_context (.refl _) rfl rfl
      rcases transfer_writeAll x.context.deadline "write response"
          (Sending.responded x.context status type data).bytes
          (x := { x with context := x.context.answering status type }) hopen with
        ⟨e, x', h, hquiet⟩ | ⟨w, h, hat, hw⟩ <;> rw [Sending.bytes, Context.answering] at h <;>
        dsimp only <;> rw [h]
      · exact .failed (trans_of Quiet hhead hquiet)
      · exact .done rfl
          ⟨hopen, hat, rfl, fun _ => Bool.eq_false_iff.2 hfirst, rfl, fun _ => rfl, hw⟩

theorem sends_upgrade (x : Exchange) :
    Sends x ((x.context.head.header? "sec-websocket-key").map (.upgraded x.context))
      (upgrade x) := by
  rcases ensureOpen_cases "upgrade" _ x with ⟨e, h⟩ | ⟨hopen, h⟩ <;> rw [upgrade, h]
  · exact .failed (refl_of Quiet x)
  · rw [context_bind]
    split
    · exact .failed (refl_of Quiet x)
    · rename_i hfirst
      dsimp only
      split
      · exact .failed (refl_of Quiet x)
      · rcases hkey : x.context.head.header? "sec-websocket-key" with _ | key
        · exact .failed (refl_of Quiet x)
        · dsimp only
          rw [bind_apply]
          rcases transfer_writeAll x.context.deadline "write upgrade response"
              (Sending.upgraded x.context key).bytes hopen with
            ⟨e, x', h, hquiet⟩ | ⟨w, h, hat, hw⟩ <;> rw [Sending.bytes] at h <;> rw [h]
          · exact .failed hquiet
          · exact .done rfl ⟨hopen, hat, rfl, fun _ => Bool.eq_false_iff.2 hfirst, rfl,
              fun h => absurd rfl h, hw⟩

end Act

/-! ## What a call does -/

namespace Request

open Act Exchange

/-- What a call sends if it succeeds. -/
def Call.sending? (c : Context) : Call → Option Sending
  | .write data => some (.wrote c data)
  | .respond status type data => some (.responded c status type data)
  | .upgrade => (c.head.header? "sec-websocket-key").map (.upgraded c)
  | _ => none

/-- The call is one on the WebSocket that the request has become. -/
def Call.isOnSocket : Call → Bool
  | .receive _ _ | .send _ | .close | .isClosed | .writeDeadline _ => true
  | _ => false

/-- What a call makes of a request. -/
inductive Does (x : Exchange) : Call → Outcome Reply → Exchange → Prop
  | quiet {c : Call} {r : Outcome Reply} {x' : Exchange} : Quiet x x' →
      (∃ e, r = .error e) ∨ c.sending? x.context = none → Does x c r x'
  | sent {c : Call} {reply : Reply} {s : Sending} {x' : Exchange} :
      c.sending? x.context = some s → Sent x s x' → Does x c (.ok reply) x'
  | aborted {r : Outcome Reply} : x.context.phase ≠ .upgraded →
      Does x .abort r { x with context := { x.context with phase := .aborted, attached := false } }
  | onSocket {c : Call} {r : Outcome Reply} {x' : Exchange} : c.isOnSocket = true → OnSocket x x' →
      Does x c r x'

theorem does_of_sends {x x' : Exchange} {c : Call} {r : Outcome Reply}
    (h : Sends x (c.sending? x.context) (r, x')) : Does x c r x' := by
  cases h with
  | failed hquiet => exact .quiet hquiet (.inl ⟨_, rfl⟩)
  | done hs hsent => exact .sent hs hsent

/-- What is kept by all that can be done with a WebSocket is kept by the calls on it. -/
theorem keeps_onSocket {R : Exchange → Exchange → Prop} [Std.Refl R] [IsTrans Exchange R] {c : Call}
    (hc : c.isOnSocket = true) (hread : ∀ d, Keeps R (Act.socket (WebSocket.read d)))
    (hsend : ∀ m, Keeps R (Act.socket (WebSocket.send m)))
    (hclose : Keeps R (Act.socket WebSocket.close))
    (hget : Keeps R (Act.socket WebSocket.getSocket))
    (hset : ∀ s, Keeps R (Act.socket (WebSocket.setSocket s))) : Keeps R (act c) := by
  cases c with
  | receive ms cancelled => exact keeps_clock.bind fun _ => (hread _).return _
  | send m => exact (hsend m).return _
  | close => exact hclose.return _
  | isClosed => exact hget.return _
  | writeDeadline ms =>
    exact keeps_clock.bind fun _ => hget.bind fun _ => (hset _).return _
  | _ => cases hc

theorem onSocket_socket {α : Type} (call : WebSocket.Call α) :
    Keeps OnSocket (Act.socket call) := by
  intro x
  rw [Act.socket]
  split
  · exact refl_of OnSocket x
  · rename_i s hs
    exact ⟨rfl, fun hnone => by rw [hs] at hnone; cases hnone⟩

theorem onSocket_act {c : Call} (hc : c.isOnSocket = true) : Keeps OnSocket (act c) :=
  keeps_onSocket hc (fun _ => onSocket_socket _) (fun _ => onSocket_socket _) (onSocket_socket _)
    (onSocket_socket _) fun _ => onSocket_socket _

theorem call_abort (x : Exchange) :
    call x .abort = (.ok .done,
      if x.context.phase = .upgraded then x
      else { x with context := { x.context with phase := .aborted, attached := false } }) := by
  rw [call, act, abort, modify_bind]
  split <;> rfl

/-- **A call is quiet, or it sends something, or it drops the transport, or it is one on the
WebSocket.** -/
theorem does (x : Exchange) (c : Call) : Does x c (call x c).1 (call x c).2 := by
  have quiet {c : Call} (hc : Keeps Quiet (act c)) (hnone : c.sending? x.context = none) :
      Does x c (call x c).1 (call x c).2 := .quiet (hc x) (.inr hnone)
  cases c with
  | phase => exact quiet (keeps_context.return _) rfl
  | isTerminal => exact quiet (keeps_context.return _) rfl
  | method => exact quiet (quiet_touchHead.return _) rfl
  | url => exact quiet (quiet_touchHead.return _) rfl
  | path => exact quiet (quiet_touchHead.return _) rfl
  | query name => exact quiet (quiet_touchHead.return _) rfl
  | header name => exact quiet (quiet_touchHead.return _) rfl
  | cookie name => exact quiet (quiet_touchHead.return _) rfl
  | «variable» name => exact quiet (quiet_touchHead.return _) rfl
  | pathVariables => exact quiet (quiet_touchHead.return _) rfl
  | head => exact quiet (quiet_touchHead.return _) rfl
  | reader reads => exact quiet (quiet_reader.bind fun _ => (quiet_doReads reads).return _) rfl
  | read r => exact quiet (quiet_reader.bind fun _ => (quiet_doRead r).return _) rfl
  | body => exact quiet (quiet_body.map _) rfl
  | setStatus status => exact quiet ((quiet_setStatus status).return _) rfl
  | setHeader name value => exact quiet ((quiet_setHeader name value).return _) rfl
  | write data => exact does_of_sends (sends_return (sends_write data x) _)
  | flush => exact quiet (quiet_flush.return _) rfl
  | respond status type data =>
    exact does_of_sends (sends_return (sends_respond status type data x) _)
  | returnless => exact quiet (keeps_context.return _) rfl
  | upgrade => exact does_of_sends (sends_return (sends_upgrade x) _)
  | complete => exact quiet (quiet_complete.return _) rfl
  | abort =>
    rw [call_abort]
    split
    · exact .quiet (refl_of Quiet x) (.inr rfl)
    · exact .aborted ‹_›
  | markTimedOut => exact quiet (quiet_markTimedOut.return _) rfl
  | resetTimeout ms => exact quiet ((quiet_resetTimeout ms).return _) rfl
  | cancel => exact quiet (quiet_cancelToken.return _) rfl
  | deadline => exact quiet (keeps_context.bind fun _ => keeps_clock.return _) rfl
  | deadlineFor ms => exact quiet (keeps_context.bind fun _ => keeps_clock.return _) rfl
  | receive | send | close | isClosed | writeDeadline => exact .onSocket rfl (onSocket_act rfl x)

/-! ## A request in the hands of its handler -/

/-- Between two calls time passes, tokens are cancelled, and the peer sends or goes away. -/
structure Elapses (x x' : Exchange) : Prop where
  context : x'.context = x.context
  socket : x'.socket = x.socket
  sent : x'.wire.transport.sent = x.wire.transport.sent
  outgoing : x'.wire.transport.outgoing = x.wire.transport.outgoing

/-- A call, and the request as it found it. -/
structure Deed where
  call : Call
  before : Exchange

namespace Deed

/-- What the handler is answered. -/
def reply (d : Deed) : Outcome Reply := (Request.call d.before d.call).1

/-- The exchange behind the call. -/
def after (d : Deed) : Exchange := (Request.call d.before d.call).2

theorem does (d : Deed) : Does d.before d.call d.reply d.after := Request.does d.before d.call

end Deed

/-- Calls on a request, in any order and with anything in between.  A reader that is open already
may go on reading, too. -/
inductive Handling (x₀ : Exchange) : List Deed → Exchange → Prop
  | start : Handling x₀ [] x₀
  | call {deeds : List Deed} {x : Exchange} : Handling x₀ deeds x → ∀ c,
      Handling x₀ (deeds ++ [⟨c, x⟩]) (Deed.after ⟨c, x⟩)
  | readOn {deeds : List Deed} {x : Exchange} : Handling x₀ deeds x → ∀ r,
      Handling x₀ deeds (doRead r x).2
  | meanwhile {deeds : List Deed} {x x' : Exchange} : Handling x₀ deeds x → Elapses x x' →
      Handling x₀ deeds x'

end Request

end ScriptHost
