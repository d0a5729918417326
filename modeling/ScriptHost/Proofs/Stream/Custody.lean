import ScriptHost.Proofs.Stream.Phase

/-!
# Who has the transport

A request has its transport until it gives it away: to the WebSocket that it becomes, or to nobody
when it is aborted.  The phase says so, and the two are never at odds (`Exchange.Joined`), although
most phases are left in the middle of a call that may still fail.  A call that would use the
transport of a request that has none finds out from the phase before it looks for the transport; so
the failure that is there for such a call (`Act.transportGone`) never shows (`Act.Steady`).

A terminal phase is for good.  What the calls that need an open request reply from then on is known
in full, and they change nothing (`Request.call_of_terminal`, `Request.doRead_of_terminal`),
whatever else is done to the request (`Request.custody_of_handling`).
-/

set_option autoImplicit false

namespace ScriptHost

/-! ## What callers are told -/

/-- The failure of a call that looks for the transport and does not find it. -/
def Act.transportGone : Failure := .illegalState "request transport is gone"

/-- The outcome does not complain of a missing transport, neither as a failure nor in what it
brings. -/
def Outcome.Served {α : Type} (P : α → Prop) : Outcome α → Prop
  | .ok v => P v
  | .error e => e.message? ≠ Act.transportGone.message?

namespace Request

/-- Plain input has its own way to tell of a failure. -/
def ReadReply.Served : ReadReply → Prop
  | .fault e | .upTo _ e => some e.message ≠ Act.transportGone.message?
  | .bytes _ | .byte _ | .remaining _ => True

/-- No failure in the reply is one of a transport that is gone. -/
def Reply.Served : Reply → Prop
  | .read r => r.Served
  | .readings rs => ∀ r ∈ rs, Outcome.Served ReadReply.Served r
  | _ => True

end Request

namespace Failure

theorem served_illegalState {message : String} (h : message ≠ "request transport is gone") :
    (illegalState message).message? ≠ Act.transportGone.message? := fun heq => by
  simp only [message?, Act.transportGone, Option.some.injEq, String.append_right_inj] at heq
  exact h heq

theorem served_of_head {message : String} (h : message.toList.head? ≠ some 'r') :
    (illegalState message).message? ≠ Act.transportGone.message? :=
  served_illegalState fun heq => h (by rw [heq]; rfl)

/-- The failures of a wire: the deadline has passed, or the transport has said something. -/
inductive OfWire (operation : String) : Failure → Prop
  | late : OfWire operation (.timeout operation)
  | said (e : IoFault) : OfWire operation (.ofIoIn operation e)

/-- An operation that does not begin like an illegal state is not taken for one. -/
theorem OfWire.served {operation : String} {e : Failure} (h : OfWire operation e)
    (hname : operation.toList.head? ≠ some 'i') : e.message? ≠ Act.transportGone.message? := by
  intro heq
  have hhead := congrArg (·.bind (·.toList.head?)) heq
  cases h with
  | late => simp [message?, Act.transportGone] at hhead
  | said e =>
    cases hop : operation.toList with
    | nil => simp [message?, Act.transportGone, ofIoIn, hop] at hhead
    | cons c cs =>
      rw [hop] at hname
      simp [message?, Act.transportGone, ofIoIn, hop] at hhead hname
      exact hname hhead

end Failure

namespace Wire

variable {d : Deadline} {operation : String} {size : Nat} {e : Failure}

theorem ofWire_expire {α : Type} (w : Wire)
    (h : (w.expire d operation : Outcome α × Wire).1 = .error e) :
    e.OfWire operation := by
  cases h
  exact .late

theorem ofWire_receiveFrom (arrivals : List Arrival) (w : Wire)
    (h : (w.receiveFrom d operation size arrivals).1 = .error e) : e.OfWire operation := by
  induction arrivals generalizing w with
  | nil =>
    simp only [receiveFrom] at h
    split at h
    · cases h
    · exact ofWire_expire _ h
  | cons a rest ih =>
    cases a with
    | bytes instant data =>
      rw [receiveFrom] at h
      split at h
      · exact ofWire_expire _ h
      · dsimp only at h
        split at h
        · exact ih _ h
        · cases h
    | trouble instant fault =>
      rw [receiveFrom] at h
      split at h
      · exact ofWire_expire _ h
      · dsimp only at h
        split at h
        · exact ih _ h
        · cases h
          exact .said fault

theorem ofWire_receive (w : Wire) (h : (w.receive d operation size).1 = .error e) :
    e.OfWire operation := by
  rw [receive] at h
  split at h
  · cases h
    exact .late
  · split at h
    · cases h
    · exact ofWire_receiveFrom _ w h

theorem ofWire_sendBy (answers : List WriteAnswer) (w : Wire) (data : Bytes)
    (h : (w.sendBy d operation answers data).1 = .error e) : e.OfWire operation := by
  induction answers generalizing w data with
  | nil =>
    cases data with
    | nil => cases h
    | cons b data =>
      simp only [sendBy] at h
      split at h
      · cases h
        exact .late
      · split at h
        · rename_i fault _
          cases h
          exact .said fault
        · cases h
  | cons a answers ih =>
    cases data with
    | nil => cases h
    | cons b data =>
      simp only [sendBy] at h
      split at h
      · cases h
        exact .late
      · split at h
        · cases h
          exact .said _
        · exact ih _ _ h
        · split at h
          · exact ih _ _ h
          · cases h
            exact .said _

theorem ofWire_send (w : Wire) (data : Bytes) (h : (w.send d operation data).1 = .error e) :
    e.OfWire operation := ofWire_sendBy _ w data h

end Wire

/-! ## Transport and phase -/

/-- In these phases a request has given its transport away: to a WebSocket, or to nobody. -/
def Phase.LetsGo (p : Phase) : Prop := p = .upgraded ∨ p = .aborted

namespace Exchange

/-- The transport is away in just those phases. -/
def Joined (x : Exchange) : Prop := x.context.attached = false ↔ x.context.phase.LetsGo

variable {x : Exchange}

theorem Joined.attached (h : x.Joined) (hopen : x.context.phase.isTerminal = false) :
    x.context.attached = true := by
  cases hat : x.context.attached with
  | true => rfl
  | false => rcases h.1 hat with hp | hp <;> rw [hp] at hopen <;> cases hopen

theorem joined_of_attached (hat : x.context.attached = true) (hup : x.context.phase ≠ .upgraded)
    (hab : x.context.phase ≠ .aborted) : x.Joined := by
  rw [Joined, hat]
  exact ⟨nofun, fun h => absurd h (not_or.2 ⟨hup, hab⟩)⟩

theorem joined_of_open (hopen : x.context.phase.isTerminal = false)
    (hat : x.context.attached = true) : x.Joined :=
  joined_of_attached hat (fun hp => by rw [hp] at hopen; cases hopen)
    fun hp => by rw [hp] at hopen; cases hopen

theorem Joined.of_context {x' : Exchange} (h : x.Joined) (hp : x'.context.phase = x.context.phase)
    (hat : x'.context.attached = x.context.attached) : x'.Joined := by
  rwa [Joined, hp, hat]

end Exchange

/-! ## Computations -/

namespace Act

open Exchange

variable {α β : Type} {P : α → Prop} {Q : β → Prop} {x : Exchange}

/-- What has become of a request and its caller. -/
structure Fares (P : α → Prop) (p : Outcome α × Exchange) : Prop where
  joined : p.2.Joined
  served : Outcome.Served P p.1

/-- A computation that keeps transport and phase together and never misses the transport. -/
def Steady (P : α → Prop) (a : Act α) : Prop := ∀ x, x.Joined → Fares P (a x)

theorem Fares.bind {a : Act α} {f : α → Act β} (h : Fares P (a x))
    (hf : ∀ v, P v → Steady Q (f v)) :
    Fares Q ((a >>= f) x) := by
  rw [bind_apply]
  rcases hax : a x with ⟨e | v, x'⟩ <;> rw [hax] at h
  · exact ⟨h.joined, h.served⟩
  · exact hf v h.served x' h.joined

theorem Steady.bind {a : Act α} {f : α → Act β} (h : Steady P a) (hf : ∀ v, P v → Steady Q (f v)) :
    Steady Q (a >>= f) := fun x hx => (h x hx).bind hf

theorem steady_pure {v : α} (h : P v) : Steady P (pure v : Act α) := fun _ hx => ⟨hx, h⟩

theorem steady_throw {message : String} (h : message ≠ "request transport is gone") :
    Steady P (throw (.illegalState message) : Act α) :=
  fun _ hx => ⟨hx, Failure.served_illegalState h⟩

theorem Steady.return {a : Act α} (h : Steady P a) {f : α → β} (hf : ∀ v, P v → Q (f v)) :
    Steady Q (a >>= fun v => pure (f v)) := h.bind fun v hv => steady_pure (hf v hv)

theorem Steady.map {a : Act α} (h : Steady P a) {f : α → β} (hf : ∀ v, P v → Q (f v)) :
    Steady Q (f <$> a) := by
  rw [← bind_pure_comp]
  exact h.return hf

theorem steady_context : Steady (fun _ => True) context := fun _ hx => ⟨hx, trivial⟩

theorem steady_clock : Steady (fun _ => True) clock := fun _ hx => ⟨hx, trivial⟩

/-- A change of the context that leaves both the transport and the phase alone. -/
theorem steady_modify {f : Context → Context}
    (hf : ∀ c : Context, (f c).phase = c.phase ∧ (f c).attached = c.attached) :
    Steady (fun _ => True) (modify f) :=
  fun x hx => ⟨hx.of_context (hf x.context).1 (hf x.context).2, trivial⟩

/-- A request that is open has its transport for what follows. -/
theorem steady_ensureOpen (operation : String) {f : Unit → Act β}
    (hf : ∀ x : Exchange, x.context.phase.isTerminal = false → x.context.attached = true →
      Fares Q (f () x)) : Steady Q (ensureOpen operation >>= f) := by
  intro x hx
  cases hphase : x.context.phase.isTerminal with
  | false =>
    rw [ensureOpen_bind operation f hphase]
    exact hf x hphase (hx.attached hphase)
  | true =>
    rw [bind_apply, ensureOpen, context_bind, hphase]
    exact ⟨hx, Failure.served_of_head (by simp)⟩

/-- Using the transport of a request that has it; a success leaves the context to what follows. -/
theorem fares_transfer {io : Io α} {operation : String} {f : α → Act β}
    (hopen : x.context.phase.isTerminal = false) (hat : x.context.attached = true)
    (hio : ∀ e, (io x.wire).1 = .error e → e.OfWire operation)
    (hname : operation.toList.head? ≠ some 'i')
    (hf : ∀ v (y : Exchange), y.context = x.context → Fares Q (f v y)) :
    Fares Q ((transfer io >>= f) x) := by
  rw [bind_apply, transfer, if_pos hat]
  rcases hr : io x.wire with ⟨e | v, w⟩
  · refine ⟨?_, (hio e (by rw [hr])).served hname⟩
    dsimp only
    split
    · exact joined_of_attached hat Phase.noConfusion Phase.noConfusion
    · exact (joined_of_open hopen hat).of_context rfl rfl
  · exact hf v _ rfl

/-! ## Reads from the body -/

theorem steady_readBody (max : Nat) : Steady (fun _ => True) (readBody max) := by
  refine steady_ensureOpen _ fun x hopen hat => ?_
  have hx := joined_of_open hopen hat
  rw [context_bind]
  split
  · exact ⟨hx, trivial⟩
  · refine fares_transfer hopen hat (fun e => Wire.ofWire_receive x.wire) (by decide)
      fun _ y hy => ?_
    have hy : y.Joined := hx.of_context (congrArg _ hy) (congrArg _ hy)
    rw [modify_bind]
    exact steady_pure trivial _ (hy.of_context rfl rfl)

/-- A failure that is told as one of plain input. -/
theorem served_asIoFault {e : Failure} (h : e.message? ≠ transportGone.message?) :
    some (asIoFault e).message ≠ transportGone.message? := by
  have hempty : some "" ≠ transportGone.message? := by decide
  rw [asIoFault]
  cases hm : e.message? with
  | none => exact hempty
  | some message => rwa [hm] at h

theorem steady_readToEnd (fuel : Nat) (got : Bytes) :
    Steady (fun r => ∀ e ∈ r.2, some e.message ≠ transportGone.message?) (readToEnd fuel got) := by
  induction fuel generalizing got with
  | zero => exact steady_pure nofun
  | succ fuel ih =>
    intro x hx
    have hread := steady_readBody chunkSize x hx
    rw [readToEnd]
    dsimp only
    rcases h : readBody chunkSize x with ⟨e | chunk, x'⟩ <;> rw [h] at hread <;> dsimp only
    · refine ⟨hread.joined, fun fault hfault => ?_⟩
      cases Option.mem_some.1 hfault
      exact served_asIoFault hread.served
    · split
      · exact ⟨hread.joined, nofun⟩
      · exact ih _ x' hread.joined

theorem steady_readRest (fuel : Nat) (got : Bytes) :
    Steady (fun _ => True) (readRest fuel got) := by
  induction fuel generalizing got with
  | zero => exact steady_pure trivial
  | succ fuel ih =>
    refine (steady_readBody _).bind fun chunk _ => ?_
    split
    · exact steady_pure trivial
    · exact ih _

open Request in
theorem steady_doRead (r : Read) : Steady ReadReply.Served (doRead r) := by
  cases r with
  | bytes count => exact (steady_readBody count).map fun _ _ => trivial
  | byte =>
    exact Steady.map (P := fun _ => True) ((steady_readBody 1).return fun _ _ => trivial)
      fun _ _ => trivial
  | remaining => exact steady_context.return fun _ _ => trivial
  | plain count =>
    intro x hx
    have hread := steady_readBody count x hx
    rw [doRead]
    dsimp only
    rcases h : readBody count x with ⟨e | data, x'⟩ <;> rw [h] at hread
    · exact ⟨hread.joined, served_asIoFault hread.served⟩
    · exact ⟨hread.joined, trivial⟩
  | plainToEnd =>
    refine steady_context.bind fun c _ => (steady_readToEnd _ _).bind fun result hresult => ?_
    rcases result with ⟨data, _ | e⟩
    · exact steady_pure trivial
    · exact steady_pure (hresult e rfl)

open Request in
theorem steady_doReads (reads : List Read) :
    Steady (fun rs => ∀ r ∈ rs, Outcome.Served ReadReply.Served r) (doReads reads) := by
  induction reads with
  | nil => exact steady_pure nofun
  | cons r rest ih =>
    intro x hx
    have hfirst := steady_doRead r x hx
    exact (ih.map fun rs hrs => List.forall_mem_cons.2 ⟨hfirst.served, hrs⟩) _ hfirst.joined

theorem steady_reader : Steady (fun _ => True) reader :=
  steady_ensureOpen _ fun _ _ hat =>
    ⟨joined_of_attached hat Phase.noConfusion Phase.noConfusion, trivial⟩

theorem steady_body : Steady (fun _ => True) body :=
  steady_reader.bind fun _ _ => steady_context.bind fun _ _ => steady_readRest _ _

/-! ## The response, and the end of a request -/

theorem steady_touchHead : Steady (fun _ => True) touchHead := by
  intro x hx
  rw [touchHead, context_bind]
  split
  · rename_i hphase
    refine ⟨joined_of_attached (hx.attached ?_) Phase.noConfusion Phase.noConfusion, trivial⟩
    rw [hphase]
    rfl
  · exact ⟨hx, trivial⟩

theorem steady_setStatus (status : Nat) : Steady (fun _ => True) (setStatus status) := by
  refine steady_context.bind fun c _ => ?_
  split
  · exact steady_throw (by decide)
  · exact steady_modify fun _ => ⟨rfl, rfl⟩

theorem steady_setHeader (name value : String) : Steady (fun _ => True) (setHeader name value) := by
  refine steady_context.bind fun c _ => ?_
  split
  · exact steady_throw (by decide)
  · exact steady_modify fun _ => ⟨rfl, rfl⟩

theorem steady_write (data : Bytes) : Steady (fun _ => True) (write data) := by
  refine steady_ensureOpen _ fun x hopen hat => ?_
  have hx := joined_of_open hopen hat
  rw [context_bind]
  refine fares_transfer hopen hat (fun e => Wire.ofWire_send x.wire _) (by decide) fun _ y hy => ?_
  have hy : y.Joined := hx.of_context (congrArg _ hy) (congrArg _ hy)
  rw [modify_bind]
  exact steady_pure trivial _ (hy.of_context rfl rfl)

theorem steady_flush : Steady (fun _ => True) flush := by
  refine steady_ensureOpen _ fun x hopen hat => ?_
  rw [context_bind, hat]
  exact ⟨joined_of_open hopen hat, trivial⟩

theorem steady_respond (status : Nat) (type : String) (data : Bytes) :
    Steady (fun _ => True) (respond status type data) := by
  refine steady_ensureOpen _ fun x hopen hat => ?_
  rw [context_bind]
  split
  · exact ⟨joined_of_open hopen hat, Failure.served_illegalState (by decide)⟩
  · dsimp only
    -- the status is noted before anything is sent
    rw [modify_bind, context_bind]
    refine fares_transfer hopen hat (fun e => Wire.ofWire_send x.wire _) (by decide)
      fun _ y hy => ?_
    have hat' := (congrArg Context.attached hy).trans hat
    exact ⟨joined_of_attached hat' Phase.noConfusion Phase.noConfusion, trivial⟩

theorem steady_upgrade : Steady (fun _ => True) upgrade := by
  refine steady_ensureOpen _ fun x hopen hat => ?_
  have hx := joined_of_open hopen hat
  rw [context_bind]
  split
  · exact ⟨hx, Failure.served_illegalState (by decide)⟩
  · dsimp only
    split
    · exact ⟨hx, Failure.served_illegalState (by decide)⟩
    · rcases x.context.head.header? "sec-websocket-key" with _ | key
      · exact ⟨hx, Failure.served_illegalState (by decide)⟩
      · refine fares_transfer hopen hat (fun e => Wire.ofWire_send x.wire _) (by decide)
          fun _ y _ => ?_
        exact ⟨⟨fun _ => .inl rfl, fun _ => rfl⟩, trivial⟩

theorem steady_complete : Steady (fun _ => True) complete := by
  intro x hx
  rw [complete, context_bind]
  dsimp only
  split
  · exact ⟨hx, trivial⟩
  · split
    · exact ⟨hx, Failure.served_of_head (by simp)⟩
    · rename_i hopen
      have hat := hx.attached (Bool.eq_false_iff.2 hopen)
      exact ⟨joined_of_attached hat Phase.noConfusion Phase.noConfusion, trivial⟩

theorem steady_abort : Steady (fun _ => True) abort := by
  intro x hx
  refine ⟨?_, trivial⟩
  show Joined { x with context := if x.context.phase = .upgraded then x.context else _ }
  split
  · exact hx
  · exact ⟨fun _ => .inr rfl, fun _ => rfl⟩

theorem steady_cancelToken : Steady (fun _ => True) cancelToken :=
  fun _ hx => ⟨hx.of_context rfl rfl, trivial⟩

theorem steady_markTimedOut : Steady (fun _ => True) markTimedOut := by
  refine steady_cancelToken.bind fun _ _ x hx => ⟨?_, trivial⟩
  show Joined { x with context := if x.context.phase.isTerminal then x.context else _ }
  split
  · exact hx
  · rename_i hopen
    have hat := hx.attached (Bool.eq_false_iff.2 hopen)
    exact joined_of_attached hat Phase.noConfusion Phase.noConfusion

theorem steady_resetTimeout (ms : Int) : Steady (fun _ => True) (resetTimeout ms) :=
  steady_clock.bind fun _ _ => steady_modify fun _ => ⟨rfl, rfl⟩

end Act

namespace Request

open Act Exchange

variable {x x' : Exchange}

/-- **Every call** but those on the WebSocket keeps transport and phase together. -/
theorem steady_act {c : Call} (hc : c.isOnSocket = false) : Steady Reply.Served (act c) := by
  cases c with
  | phase | isTerminal | returnless => exact steady_context.return fun _ _ => trivial
  | method | url | path | query | header | cookie | «variable» | pathVariables | head =>
    exact steady_touchHead.return fun _ _ => trivial
  | reader reads => exact steady_reader.bind fun _ _ => (steady_doReads reads).return fun _ h => h
  | read r => exact steady_reader.bind fun _ _ => (steady_doRead r).return fun _ h => h
  | body => exact steady_body.map fun _ _ => trivial
  | setStatus status => exact (steady_setStatus status).return fun _ _ => trivial
  | setHeader name value => exact (steady_setHeader name value).return fun _ _ => trivial
  | write data => exact (steady_write data).map fun _ _ => trivial
  | flush => exact steady_flush.return fun _ _ => trivial
  | respond status type data => exact (steady_respond status type data).return fun _ _ => trivial
  | upgrade => exact steady_upgrade.return fun _ _ => trivial
  | complete => exact steady_complete.return fun _ _ => trivial
  | abort => exact steady_abort.return fun _ _ => trivial
  | markTimedOut => exact steady_markTimedOut.return fun _ _ => trivial
  | resetTimeout ms => exact (steady_resetTimeout ms).return fun _ _ => trivial
  | cancel => exact steady_cancelToken.return fun _ _ => trivial
  | deadline | deadlineFor =>
    exact steady_context.bind fun _ _ => steady_clock.return fun _ _ => trivial
  | receive | send | close | isClosed | writeDeadline => cases hc

theorem Handling.joined {deeds : List Deed} (h : Handling x deeds x') (hx : x.Joined) :
    x'.Joined := by
  induction h with
  | start => exact hx
  | @call deeds x₁ _ c ih =>
    cases hc : c.isOnSocket with
    | false => exact (steady_act hc x₁ ih).joined
    | true =>
      have hsame : (Deed.after ⟨c, x₁⟩).context = x₁.context := (onSocket_act hc x₁).1
      exact ih.of_context (congrArg _ hsame) (congrArg _ hsame)
  | readOn _ r ih => exact (steady_doRead r _ ih).joined
  | meanwhile _ helapses ih =>
    exact ih.of_context (congrArg _ helapses.context) (congrArg _ helapses.context)

/-! ## After the end -/

/-- What a call does for which the request has to be open. -/
def Call.operation? : Call → Option String
  | .reader _ | .read _ | .body => some "read the body"
  | .write _ => some "write"
  | .flush => some "flush"
  | .respond .. => some "respond"
  | .upgrade => some "upgrade"
  | _ => none

/-- Why a request that is over refuses to do something. -/
def refusal (c : Context) (operation : String) : Failure :=
  .illegalState ("cannot " ++ operation ++ " once the request is " ++ c.phase.name)

/-- What comes of a read that is refused. -/
def Read.refused (e : Failure) : Read → Outcome ReadReply
  | .plain _ => .ok (.fault (asIoFault e))
  | .plainToEnd => .ok (.upTo [] (asIoFault e))
  | .bytes _ | .byte | .remaining => .error e

theorem ensureOpen_of_terminal {β : Type} (hx : x.context.phase.isTerminal = true)
    (operation : String) (f : Unit → Act β) :
    (ensureOpen operation >>= f) x = (.error (refusal x.context operation), x) := by
  rw [bind_apply, ensureOpen, context_bind, hx]
  rfl

/-- **A request that is over refuses** every call for which it has to be open, and stays as it
is. -/
theorem call_of_terminal (hx : x.context.phase.isTerminal = true) {c : Call} {operation : String}
    (hc : c.operation? = some operation) :
    call x c = (.error (refusal x.context operation), x) := by
  have fails {α β : Type} {a : Act α} {f : α → Act β}
      (ha : a x = (.error (refusal x.context operation), x)) :
      (a >>= f) x = (.error (refusal x.context operation), x) := by
    rw [bind_apply, ha]
  cases c with
  | reader | read | flush | respond | upgrade =>
    cases hc
    exact fails (ensureOpen_of_terminal hx ..)
  | body =>
    cases hc
    have hbody : body x = _ := fails (ensureOpen_of_terminal hx ..)
    rw [call, act, map_apply, hbody]
    rfl
  | write data =>
    cases hc
    have hwrite : write data x = _ := ensureOpen_of_terminal hx ..
    rw [call, act, map_apply, hwrite]
    rfl
  | _ => cases hc

/-- A body that is open for reading is no more to be read. -/
theorem doRead_of_terminal (hx : x.context.phase.isTerminal = true) {r : Read}
    (hr : r ≠ .remaining) :
    doRead r x = (r.refused (refusal x.context "read the body"), x) := by
  have hread (max : Nat) : readBody max x = (.error (refusal x.context "read the body"), x) :=
    ensureOpen_of_terminal hx ..
  cases r with
  | bytes count =>
    rw [doRead, map_apply, hread]
    rfl
  | byte =>
    rw [doRead, map_apply, readByte, bind_apply, hread]
    rfl
  | remaining => exact absurd rfl hr
  | plain count =>
    rw [doRead]
    dsimp only
    rw [hread]
    rfl
  | plainToEnd =>
    have hend : readToEnd (x.context.remaining + 1) [] x =
        (.ok ([], some (asIoFault (refusal x.context "read the body"))), x) := by
      rw [readToEnd]
      dsimp only
      rw [hread]
    rw [doRead, context_bind, bind_apply, hend]
    rfl

theorem Handling.isTerminal {deeds : List Deed} (h : Handling x deeds x')
    (hx : x.context.phase.isTerminal = true) : x'.context.phase.isTerminal = true := by
  induction h with
  | start => exact hx
  | @call deeds x₁ _ c ih =>
    rcases (Deed.does ⟨c, x₁⟩).phase with hleads | ⟨⟨-, haborted⟩, -⟩
    · exact hleads.eq_of_isTerminal ih ▸ ih
    · rw [haborted]
      rfl
  | readOn _ r ih => exact (quiet_doRead r _).phase.eq_of_isTerminal ih ▸ ih
  | meanwhile _ helapses ih => rwa [helapses.context]

/-- **A request has its transport until it is upgraded or aborted**, and these two phases are all in
which it has none.  So nobody is ever told that the transport is gone, be it in so many words or as
a fault of plain input.  Once a request is over, and whatever is done to it from then on, every call
for which it would have to be open and every read from a body that is open already is refused as an
illegal state, and leaves everything as it is. -/
theorem custody_of_handling {clock : Clock} {head : Head} {timeout : Int} {token : Token}
    {holder : Holder} {wire : Wire} {deeds : List Deed}
    (h : Handling { context := .new clock head timeout token holder, wire } deeds x) :
    (x.context.attached = false ↔ x.context.phase = .upgraded ∨ x.context.phase = .aborted) ∧
      (∀ c, c.isOnSocket = false → Outcome.Served Reply.Served (call x c).1) ∧
      (∀ r, Outcome.Served ReadReply.Served (doRead r x).1) ∧
      (x.context.phase.isTerminal = true → ∀ later x', Handling x later x' →
        (∀ c operation, c.operation? = some operation →
          call x' c = (.error (refusal x'.context operation), x')) ∧
        ∀ r, r ≠ .remaining →
          doRead r x' = (r.refused (refusal x'.context "read the body"), x')) := by
  have hx : x.Joined := h.joined (joined_of_open rfl rfl)
  refine ⟨hx, fun c hc => (steady_act hc x hx).served, fun r => (steady_doRead r x hx).served, ?_⟩
  intro hover later x' hlater
  have hover' := hlater.isTerminal hover
  exact ⟨fun c operation hc => call_of_terminal hover' hc, fun r hr => doRead_of_terminal hover' hr⟩

/-- A write comes too late.  More time does not help, and neither does completing the request;
aborting it takes the transport away. -/
theorem custody_of_handling_late :
    let x := (call (Conversation.start (.new "GET" "/") 0 {}).exchange (.write [1])).2
    let y := (call (call x (.resetTimeout (-1))).2 .complete).2
    let z := (call y .abort).2
    x.context.phase = .timedOut ∧ x.context.attached = true ∧
      call y (.respond 200 "text/plain" [1]) =
        (.error (.illegalState "cannot respond once the request is timed-out"), y) ∧
      doRead .plainToEnd y =
        (.ok (.upTo []
          ⟨.other, "illegal state: cannot read the body once the request is timed-out"⟩), y) ∧
      z.context.phase = .aborted ∧ z.context.attached = false ∧
      call z .upgrade =
        (.error (.illegalState "cannot upgrade once the request is aborted"), z) := by
  intro x y z
  have hx : Handling (Conversation.start (.new "GET" "/") 0 {}).exchange _ x :=
    .call .start (.write [1])
  have hphase : x.context.phase = .timedOut := by decide +kernel
  have hover : x.context.phase.isTerminal = true := by
    rw [hphase]
    rfl
  have hy : Handling x _ y := .call (.call .start (.resetTimeout (-1))) .complete
  have hz : Handling x _ z := hy.call .abort
  have hphase_y : y.context.phase = .timedOut := by decide +kernel
  have hphase_z : z.context.phase = .aborted := by decide +kernel
  have h := (custody_of_handling hx).2.2.2 hover
  have hrespond := (h _ y hy).1 (.respond 200 "text/plain" [1]) _ rfl
  have hread := (h _ y hy).2 .plainToEnd nofun
  have hupgrade := (h _ z hz).1 .upgrade _ rfl
  rw [refusal, hphase_y] at hrespond hread
  rw [refusal, hphase_z] at hupgrade
  have hgone := (custody_of_handling ((Handling.call (.call hx (.resetTimeout (-1))) .complete).call
    .abort)).1.2 (.inr hphase_z)
  exact ⟨hphase, by decide +kernel, hrespond, hread, hphase_z, hgone, hupgrade⟩

end Request

end ScriptHost
