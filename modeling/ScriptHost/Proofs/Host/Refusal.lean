import ScriptHost.Proofs.Host.Ending
import ScriptHost.Proofs.Stream.HeadReading

/-!
# Requests that come to no invocation

A host reads the head of a request, looks for its route, and queues an invocation of the handler of
that route.  A request that has no route is answered by the host before its fault is reported.  A
request whose route has no handler is reported with the same kind of fault, but nobody answers it.

* `RouteFault.notice` — what the client of a request without a route is told.
* `Act.sent_respond` — a response that succeeds has been sent as a whole, however its client takes
  it.
* `Host.kept_runUntil` — a host that runs keeps its routes and its handlers.
* `Host.notified_iff` — when a client has been told of the fault that is reported.
-/

set_option autoImplicit false

namespace ScriptHost

/-- What the client of a request without a route is told. -/
def RouteFault.notice : RouteFault → Envelope
  | .methodNotAllowed _ _ => ⟨405, Envelope.plainType, Utf8.encode "Method not allowed"⟩
  | _ => ⟨404, Envelope.plainType, Utf8.encode "Not found"⟩

theorem Envelope.response_ne_nil (e : Envelope) (fields : List (String × String)) :
    e.response fields ≠ [] := by
  intro hnil
  simp [response, Utf8.encode, show Utf8.encodeChar 'H' = [72] from rfl] at hnil

/-! ## A response of the host itself -/

/-- A response that succeeds has been sent as a whole, in however many pieces. -/
theorem Act.sent_respond {status : Nat} {type : String} {data : Bytes} {x : Exchange}
    (hok : (respond status type data x).1 = .ok ()) :
    (respond status type data x).2.wire.transport.sent =
      x.wire.transport.sent ++ (Sending.responded x.context status type data).bytes := by
  rcases ensureOpen_cases "respond" _ x with ⟨e, h⟩ | ⟨-, h⟩ <;> rw [respond, h] at hok ⊢
  · cases hok
  · rw [context_bind] at hok ⊢
    split at hok
    · cases hok
    · rename_i hfirst
      rw [if_neg hfirst]
      dsimp only at hok ⊢
      rw [modify_bind, context_bind, bind_apply] at hok ⊢
      rcases transfer_cases (Io.writeAll x.context.deadline "write response"
          (Sending.responded x.context status type data).bytes)
          { x with context := x.context.answering status type } with
        ⟨e, h⟩ | ⟨-, ⟨e, w, hw, h⟩ | ⟨v, w, hw, h⟩⟩ <;>
        rw [Sending.bytes, Context.answering] at h <;> dsimp only at hok ⊢ <;> rw [h] at hok ⊢
      · cases hok
      · cases hok
      · exact Wire.sent_of_send hw

namespace Host

open RoutePattern (dialect)

variable {R : Regex} {ε : Type} {pace : Pace} {h h' : Host R ε} {head : Head}
  {transport : Transport} {f : RouteFault}

/-- What a client is told that has not been told anything else. -/
theorem sent_of_told {status : Nat} {type : String} {data : Bytes} {x x' : Exchange}
    (hrespond : Act.respond status type data x = (.ok (), x')) (hfields : x.context.headers = []) :
    x'.wire.transport.sent =
      x.wire.transport.sent ++ (Envelope.mk status type data).response [] := by
  have hsent := Act.sent_respond (congrArg Prod.fst hrespond)
  rw [hrespond] at hsent
  rw [hsent, ← hfields, ← Envelope.bytes_responded]

/-- **A request without a route**: its fault is reported when its client has been told, and
otherwise why its client could not be told. -/
theorem refuse_spec {refusal : Refusal} (hrefuse : h.refuse head transport f = (refusal, h')) :
    (refusal.fault = .route f ∧ refusal.sent = transport.sent ++ f.notice.response []) ∨
      ∃ e, refusal.fault = .failure e := by
  unfold refuse at hrefuse
  cases f with
  | notFound | invalidPattern | methodNotAllowed =>
    dsimp only [newContext] at hrefuse
    split at hrefuse
    rename_i r x' hrespond
    cases hrefuse
    cases r with
    | error e => exact .inr ⟨e, rfl⟩
    | ok u => exact .inl ⟨rfl, sent_of_told hrespond rfl⟩

/-! ## What a host keeps -/

theorem Kept.refl (h : Host R ε) : Kept h h := ⟨rfl, rfl, rfl⟩

theorem Kept.trans {h h' h'' : Host R ε} (hkept : Kept h h') (hkept' : Kept h' h'') : Kept h h'' :=
  ⟨hkept'.config.trans hkept.config, hkept'.router.trans hkept.router,
    hkept'.handlers.trans hkept.handlers⟩

theorem kept_of_step {label : Label} (hstep : h.step label = some h') : Kept h h' := by
  rcases turn_of_step hstep with ⟨ms, -, rfl⟩ | ⟨i, i', turn⟩
  · exact ⟨rfl, rfl, rfl⟩
  · exact turn.kept

theorem kept_of_stepOn {label : Label} (hstep : h.stepOn pace label = some h') : Kept h h' := by
  obtain ⟨h₁, hfirst, hthen⟩ := Option.bind_eq_some_iff.1 hstep
  split at hthen
  · exact (kept_of_step hfirst).trans (kept_of_step hthen)
  · cases hthen
    exact kept_of_step hfirst

theorem kept_settleWithin (awaited : Bool) (fuel : Nat) (h : Host R ε) :
    Kept h (settleWithin pace awaited fuel h) := by
  induction fuel generalizing h with
  | zero => exact .refl h
  | succ fuel ih =>
    rw [settleWithin]
    split
    · rename_i h₁ hadvance
      obtain ⟨label, -, hstep⟩ := List.exists_of_findSome?_eq_some hadvance
      exact (kept_of_stepOn hstep).trans (ih h₁)
    · exact .refl h

theorem kept_runWithin (awaited : Bool) (limit : Option Nat) (isDone : Host R ε → Bool) (fuel : Nat)
    (h : Host R ε) : Kept h (runWithin pace awaited limit isDone fuel h) := by
  induction fuel generalizing h with
  | zero => exact .refl h
  | succ fuel ih =>
    have hsettle : Kept h (h.settle pace awaited) := kept_settleWithin ..
    rw [runWithin]
    split
    · exact hsettle
    · split
      · rename_i instant _
        have hlater : Kept (h.settle pace awaited) ((h.settle pace awaited).setClock
            ((h.settle pace awaited).clock.advanceTo instant)) := ⟨rfl, rfl, rfl⟩
        exact hsettle.trans (hlater.trans (ih _))
      · exact hsettle

/-- **A host that runs** keeps what it has been given. -/
theorem kept_runUntil (pace : Pace) (h : Host R ε) (awaited : Bool) (limit : Option Nat)
    (isDone : Host R ε → Bool) : Kept h (h.runUntil pace awaited limit isDone) := kept_runWithin ..

theorem Kept.route (hkept : Kept h h') (head : Head) : h'.route head = h.route head := by
  rw [Host.route, Host.route, hkept.config, hkept.router]

/-! ## Reporting a fault -/

/-- The limit for the arrival of a head. -/
def headDeadline (h : Host R ε) : Deadline :=
  if h.config.serviceTimeoutMs ≤ 0 then .never else .ofTimeout h.clock h.config.serviceTimeoutMs

/-- **Whose client has been told of the fault that is reported.**  On a new connection, when a
request is reported not to be found or not to be allowed, its client has been sent one whole
response that says so, and nothing else, if and only if the route of the request, should it have
one, has a handler.  If it has none, the client has been sent nothing. -/
theorem notified_iff {refusal : Refusal} (hnew : transport.sent = [])
    (haccept : h.accept pace transport = (.error refusal, h')) (hfault : refusal.fault = .route f) :
    ∃ head wire,
      Head.read h.headDeadline { clock := h.clock, transport } = (.ok head, wire) ∧
        (refusal.sent = f.notice.response [] ↔
          ∀ m, h.route head = .ok m → (Record.get? h.handlers m.name).isSome = true) ∧
        (refusal.sent = f.notice.response [] ∨ refusal.sent = [] ∧
          ∃ m, h.route head = .ok m ∧ Record.get? h.handlers m.name = none ∧
            f = .notFound m.name) := by
  obtain ⟨c, htook⟩ := Head.took_read h.headDeadline { clock := h.clock, transport }
  rw [accept.eq_def] at haccept
  rw [headDeadline] at htook ⊢
  dsimp only at haccept
  rcases hread : Head.read (if h.config.serviceTimeoutMs ≤ 0 then .never
    else .ofTimeout h.clock h.config.serviceTimeoutMs)
    { clock := h.clock, transport } with ⟨e | head, wire⟩
  · rw [hread] at haccept
    cases haccept
    cases hfault
  · rw [hread] at haccept htook
    -- others go on while the head arrives, but routes and handlers stay
    have hkept := h.kept_runUntil pace true (some wire.clock.now) fun _ => false
    dsimp only at haccept
    generalize h.runUntil pace true (some wire.clock.now) (fun _ => false) = h₁ at haccept hkept
    have hroute := hkept.route head
    have hsent : wire.transport.sent = [] := by rw [htook.others]; exact hnew
    refine ⟨head, wire, rfl, ?_⟩
    cases hfound : h.route head with
    | error f₁ =>
      rw [hfound] at hroute
      rw [hroute] at haccept
      dsimp only at haccept
      rcases hrefuse : h₁.refuse head wire.transport f₁ with ⟨refusal₁, h₂⟩
      rw [hrefuse] at haccept
      cases haccept
      rcases refuse_spec hrefuse with ⟨hf, htold⟩ | ⟨e, hf⟩
      · cases hf.symm.trans hfault
        rw [hsent, List.nil_append] at htold
        exact ⟨iff_of_true htold nofun, .inl htold⟩
      · cases hf.symm.trans hfault
    | ok m =>
      rw [hfound] at hroute
      rw [hroute] at haccept
      dsimp only at haccept
      rw [submit, hkept.handlers] at haccept
      cases hhandler : Record.get? h.handlers m.name with
      | some handler =>
        rw [hhandler] at haccept
        cases haccept
      | none =>
        -- the route is there, and the request is dropped without a word
        rw [hhandler] at haccept
        cases haccept
        cases hfault
        refine ⟨iff_of_false (fun hnil => ?_) fun hall => ?_, .inr ⟨rfl, m, rfl, hhandler, rfl⟩⟩
        · exact Envelope.response_ne_nil _ _ hnil.symm
        · have hsome := hall m rfl
          rw [hhandler] at hsome
          cases hsome

/-- A request that is refused for want of an invocation: its fault, and what its client has been
sent. -/
def refusal? (pace : Pace) (h : Host R ε) (transport : Transport) : Option (RouteFault × Bytes) :=
  match (h.accept pace transport).1 with
  | .error { fault := .route f, sent } => some (f, sent)
  | _ => none

theorem exists_of_refusal? (pace : Pace) (config : HostConfig) (transport : Transport)
    (p : RouteFault × Bytes → Bool)
    (hany : (ofConfig config fun _ => false).toOption.any (fun h : Host dialect Unit =>
      (h.refusal? pace transport).any p) = true) :
    ∃ (h₀ h : Host dialect Unit) (refusal : Refusal) (f : RouteFault),
      ofConfig config (fun _ => false) = .ok h₀ ∧ h₀.accept pace transport = (.error refusal, h) ∧
        refusal.fault = .route f ∧ p (f, refusal.sent) = true := by
  cases hbuilt : (ofConfig config fun _ => false : Except RouteFault (Host dialect Unit)) with
  | error f =>
    rw [hbuilt] at hany
    cases hany
  | ok h₀ =>
    rw [hbuilt] at hany
    change (h₀.refusal? pace transport).any p = true at hany
    obtain ⟨⟨f, sent⟩, hrefusal, hp⟩ := (Option.any_eq_true ..).1 hany
    unfold refusal? at hrefusal
    rcases haccept : h₀.accept pace transport with ⟨r, h⟩
    rw [haccept] at hrefusal
    dsimp only at hrefusal
    split at hrefusal
    · cases hrefusal
      exact ⟨h₀, h, _, f, rfl, haccept, rfl, hp⟩
    · cases hrefusal

/-- A host with a route that has no handler. -/
def orphanConfig : HostConfig := { routes := [{ name := "orphan", pattern := "orphan" }] }

/-- A connection on which one request arrives. -/
def asking (text : String) : Transport := { incoming := [.bytes 0 (Utf8.encode text)] }

/-- A path that is not under that of the routes. -/
theorem notified_iff_outside :
    ∃ (h₀ h : Host dialect Unit) (refusal : Refusal),
      ofConfig orphanConfig (fun _ => false) = .ok h₀ ∧
        h₀.accept (fun _ => 0) (asking "GET /users/42 HTTP/1.1\r\n\r\n") = (.error refusal, h) ∧
        refusal.fault = .route (.notFound "/users/42") ∧
        refusal.sent = (RouteFault.notFound "/users/42").notice.response [] := by
  obtain ⟨h₀, h, refusal, f, hbuilt, haccept, hfault, hp⟩ :=
    exists_of_refusal? (fun _ => 0) orphanConfig (asking "GET /users/42 HTTP/1.1\r\n\r\n")
      (fun p => p.1 = .notFound "/users/42" && p.2 ≠ []) (by decide +kernel)
  simp only [Bool.and_eq_true, decide_eq_true_eq] at hp
  obtain ⟨rfl, hsome⟩ := hp
  obtain ⟨-, -, -, -, htold | ⟨hnil, -⟩⟩ := notified_iff rfl haccept hfault
  · exact ⟨h₀, h, refusal, hbuilt, haccept, hfault, htold⟩
  · exact absurd hnil hsome

/-- The client of a request whose route has no handler is told nothing, although its request is
reported not to be found. -/
theorem orphan_not_notified :
    ¬ ∀ (config : HostConfig) (h₀ h : Host dialect Unit) (handlers : Record (Handler Unit))
      (transport : Transport) (refusal : Refusal) (f : RouteFault),
      config.serviceTimeoutMs ≠ 0 → ofConfig config (fun _ => false) = .ok h₀ →
      transport.outgoing = [] → transport.refused = none → transport.sent = [] →
      Host.accept (fun _ => 0) { h₀ with handlers } transport = (.error refusal, h) →
      refusal.fault = .route f →
      refusal.sent = f.notice.response [] := by
  intro hall
  obtain ⟨h₀, h, refusal, f, hbuilt, haccept, hfault, hnil⟩ :=
    exists_of_refusal? (fun _ => 0) orphanConfig (asking "GET /service/orphan HTTP/1.1\r\n\r\n")
      (fun p => p.2 = []) (by decide +kernel)
  have htold :=
    hall orphanConfig h₀ h h₀.handlers _ refusal f (by decide) hbuilt rfl rfl rfl haccept
    hfault
  exact Envelope.response_ne_nil _ _ (htold.symm.trans (of_decide_eq_true hnil))

end Host

end ScriptHost
