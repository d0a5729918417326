import ScriptHost.Proofs.Stream.Request
import ScriptHost.Stream.Conversation

/-!
# What the peer gets

Three calls send something, and a handler may make them in any order, over and over, with the
deadline expiring at any moment.  On the in-memory transport all that comes of it is one response at
most: a head and whatever is written behind it, or one whole response, or one answer to an upgrade.

* `Deed.sent` — what a call has added to the transport, and `Deed.sending?`, what it should have
  added going by its success.  They agree (`Does.exact`).
* `Response` — the sendings that make one response, and its bytes.
* `Standing` — what the context knows of the response so far, which is what its two flags are for.
  Every sending continues a response (`Response.sent`), and every change keeps the standing.
* `response_of_handling` — the law for every course of a request.
-/

set_option autoImplicit false

namespace ScriptHost.Request

open Exchange

/-! ## What one call has sent -/

/-- What a call has sent, going by its reply. -/
def Call.sent? (c : Context) (call : Call) : Outcome Reply → Option Sending
  | .ok _ => call.sending? c
  | .error _ => none

namespace Deed

/-- What a deed sends. -/
def sending? (d : Deed) : Option Sending := d.call.sent? d.before.context d.reply

/-- The bytes that the context has added to the transport; those of a WebSocket are not its own. -/
def sent (d : Deed) : Bytes :=
  if d.call.isOnSocket then []
  else d.after.wire.transport.sent.drop d.before.wire.transport.sent.length

end Deed

/-- The bytes that the context has sent in a course of calls. -/
def sent (deeds : List Deed) : Bytes := deeds.flatMap Deed.sent

/-- What a handling sends, in order. -/
def sendings (deeds : List Deed) : List Sending := deeds.filterMap Deed.sending?

variable {x x' : Exchange} {c : Call} {r : Outcome Reply} {d : Deed} {s : Sending}

theorem key_of_sending? {before c' : Context} {key : String}
    (h : c.sending? before = some (.upgraded c' key)) :
    c'.head.header? "sec-websocket-key" = some key := by
  cases c with
  | upgrade =>
    obtain ⟨key', hkey, heq⟩ := Option.map_eq_some_iff.1 h
    cases heq
    exact hkey
  | _ => cases h

theorem sent?_eq_none (h : c.sending? x.context = none) : c.sent? x.context r = none := by
  cases r with
  | ok => exact h
  | error => rfl

theorem sending?_of_onSocket {before : Context} (hon : c.isOnSocket = true) :
    c.sending? before = none := by
  cases c <;> first | rfl | cases hon

/-- What is added to the transport is what the reply says. -/
theorem Does.exact (h : Does x c r x') (hx : x.Settled) (hown : c.isOnSocket = false) :
    x'.wire.transport.sent =
      x.wire.transport.sent ++ ((c.sent? x.context r).map Sending.bytes).getD [] := by
  cases h with
  | quiet hquiet hnone =>
    have hnone : c.sent? x.context r = none := by
      rcases hnone with ⟨e, rfl⟩ | hnone
      · rfl
      · exact sent?_eq_none hnone
    rw [hnone, hquiet.transport hx]
    exact (List.append_nil _).symm
  | sent hs hsent =>
    rw [hsent.transport (hx.outgoing hsent.opened), Call.sent?, hs]
    rfl
  | aborted =>
    rw [sent?_eq_none rfl]
    exact (List.append_nil _).symm
  | onSocket hon =>
    rw [hon] at hown
    cases hown

/-- The peer has got from a call what the call is said to have sent. -/
structure Deed.Exact (d : Deed) : Prop where
  own : d.call.isOnSocket = false →
    d.after.wire.transport.sent = d.before.wire.transport.sent ++ d.sent
  sent : d.sent = (d.sending?.map Sending.bytes).getD []

theorem Deed.exact_of_settled (h : d.before.Settled) : d.Exact := by
  cases hon : d.call.isOnSocket with
  | false =>
    have hexact := d.does.exact h hon
    have hsent : d.sent = (d.sending?.map Sending.bytes).getD [] := by
      rw [Deed.sent, hon, hexact, List.drop_left]
      rfl
    exact ⟨fun _ => by rw [hsent]; exact hexact, hsent⟩
  | true =>
    have hnone : d.sending? = none := sent?_eq_none (sending?_of_onSocket hon)
    refine ⟨fun hown => ?_, ?_⟩
    · rw [hon] at hown
      cases hown
    · rw [hnone, Deed.sent, hon]
      rfl

/-! ## Responses -/

/-- The sendings that make one response, and its bytes. -/
inductive Response : List Sending → Bytes → Prop
  | nothing : Response [] []
  | written (c : Context) (data : Bytes) (more : List (Context × Bytes)) :
      Response (.wrote c data :: more.map fun (c, data) => .wrote c data)
        (Utf8.encode (c.responseHead none) ++ data ++ more.flatMap (·.2))
  | responded (c : Context) (status : Nat) (type : String) (data : Bytes) :
      Response [.responded c status type data]
        (Utf8.encode ((c.answering status type).responseHead (some data.length)) ++ data)
  | upgraded {c : Context} {key : String} : c.head.header? "sec-websocket-key" = some key →
      Response [.upgraded c key] (Utf8.encode (Context.upgradeResponse key))

/-- Nothing comes behind what ends a response. -/
theorem Response.alone {earlier later : List Sending} {bytes : Bytes}
    (h : Response (earlier ++ s :: later) bytes) (hends : s.ends = true) : later = [] := by
  generalize hss : earlier ++ s :: later = ss at h
  have single {s' : Sending} (hone : earlier ++ s :: later = [s']) : later = [] := by
    have hlength := congrArg List.length hone
    simp only [List.length_append, List.length_cons, List.length_nil] at hlength
    exact List.length_eq_zero_iff.1 (by omega)
  cases h with
  | nothing => simp at hss
  | written c data more =>
    have hmem : s ∈ Sending.wrote c data :: more.map fun (c, data) => .wrote c data := by
      rw [← hss]
      exact List.mem_append_right _ (List.mem_cons_self ..)
    rcases List.mem_cons.1 hmem with rfl | hmem
    · cases hends
    · obtain ⟨_, -, rfl⟩ := List.mem_map.1 hmem
      cases hends
  | responded => exact single hss
  | upgraded => exact single hss

/-- What a context knows of the response. -/
structure Standing (ss : List Sending) (c : Context) : Prop where
  begun : c.headSent = true → ss ≠ []
  fresh : c.phase.isTerminal = false → c.headSent = false → ss = []
  ended : ∀ s ∈ ss, s.ends = true → c.phase.isTerminal = true

namespace Standing

variable {ss : List Sending}

/-- Nothing is sent, and a request that is over stays so. -/
theorem of_unsent {c c' : Context} (h : Standing ss c) (hsent : c'.headSent = c.headSent)
    (hover : c.phase.isTerminal = true → c'.phase.isTerminal = true) : Standing ss c' where
  begun hbegun := h.begun (by rwa [hsent] at hbegun)
  fresh hopen hfresh := by
    refine h.fresh (Bool.eq_false_iff.2 fun hterminal => ?_) (by rwa [hsent] at hfresh)
    rw [hover hterminal] at hopen
    cases hopen
  ended s hs hends := hover (h.ended s hs hends)

theorem of_sent (h : Standing ss x.context) (hsent : Sent x s x') :
    Standing (ss ++ [s]) x'.context := by
  rw [hsent.after]
  refine ⟨fun _ => List.append_ne_nil_of_right_ne_nil _ (List.cons_ne_nil _ _), ?_, ?_⟩
  · cases s with
    | wrote => exact fun _ h => by cases h
    | responded => exact fun h => by cases h
    | upgraded => exact fun h => by cases h
  · intro s' hs' hends
    rcases List.mem_append.1 hs' with hs' | hs'
    · have hterminal := h.ended s' hs' hends
      rw [hsent.opened] at hterminal
      cases hterminal
    · obtain rfl := List.mem_singleton.1 hs'
      cases s' with
      | wrote => cases hends
      | responded => rfl
      | upgraded => rfl

end Standing

/-- **What is sent continues the response.**  A head goes out with the first piece only, and what
makes a whole response by itself goes out first or not at all. -/
theorem Response.sent {ss : List Sending} {bytes : Bytes} (h : Response ss bytes)
    (hstanding : Standing ss x.context) (hs : c.sending? x.context = some s) (hsent : Sent x s x') :
    Response (ss ++ [s]) (bytes ++ s.bytes) := by
  have hbefore := hsent.before
  cases hhead : x.context.headSent with
  | false =>
    -- no head has gone out and the request is open, so this comes first
    obtain rfl := hstanding.fresh hsent.opened hhead
    cases h
    cases s with
    | wrote c' data =>
      obtain rfl : c' = x.context := hbefore
      simpa [Sending.bytes, hhead] using Response.written x.context data []
    | responded c' status type data =>
      simpa only [Sending.bytes, List.nil_append] using Response.responded c' status type data
    | upgraded c' key =>
      simpa only [Sending.bytes, List.nil_append] using Response.upgraded (key_of_sending? hs)
  | true =>
    -- a head has gone out and the request is open, so this can only be one more piece
    have hmore : s.ends = false := by
      refine Bool.eq_false_iff.2 fun hends => ?_
      rw [hsent.first hends] at hhead
      cases hhead
    have ended (h : ∀ s ∈ ss, s.ends = true) (hne : ss ≠ []) : False := by
      obtain ⟨s', hs'⟩ := List.exists_mem_of_ne_nil ss hne
      have hterminal := hstanding.ended s' hs' (h s' hs')
      rw [hsent.opened] at hterminal
      cases hterminal
    cases h with
    | nothing => exact absurd rfl (hstanding.begun hhead)
    | responded => exact (ended (by simp [Sending.ends]) (by simp)).elim
    | upgraded => exact (ended (by simp [Sending.ends]) (by simp)).elim
    | written c₀ data₀ more =>
      cases s with
      | responded => cases hmore
      | upgraded => cases hmore
      | wrote c' data =>
        obtain rfl : c' = x.context := hbefore
        simpa [Sending.bytes, hhead] using
          Response.written c₀ data₀ (more ++ [(x.context, data)])

/-! ## A whole course -/

/-- What holds of a request whose context has sent what the deeds say, behind what was sent
before. -/
structure Account (sent₀ : Bytes) (deeds : List Deed) (x : Exchange) : Prop where
  whole : x.context.phase ≠ .upgraded → x.socket = none ∧ x.wire.transport.outgoing = [] ∧
    x.wire.transport.sent = sent₀ ++ sent deeds
  exact : ∀ d ∈ deeds, d.Exact
  response : Response (sendings deeds) (sent deeds)
  standing : Standing (sendings deeds) x.context

namespace Account

variable {sent₀ : Bytes} {deeds : List Deed}

theorem settled (h : Account sent₀ deeds x) : x.Settled := by
  by_cases hup : x.context.phase = .upgraded
  · left
    rw [hup]
    rfl
  · exact .inr (h.whole hup).2.1

theorem quiet (h : Account sent₀ deeds x) (hquiet : Quiet x x') : Account sent₀ deeds x' where
  whole hup := by
    have hup : x.context.phase ≠ .upgraded := fun heq => by
      rw [← hquiet.phase.eq_of_isTerminal (by rw [heq]; rfl)] at hup
      exact hup heq
    obtain ⟨hsocket, hout, hsent⟩ := h.whole hup
    rw [hquiet.socket, hquiet.transport h.settled]
    exact ⟨hsocket, hout, hsent⟩
  exact := h.exact
  response := h.response
  standing := h.standing.of_unsent hquiet.headSent fun hterminal => by
    rwa [← hquiet.phase.eq_of_isTerminal hterminal]

theorem elapses (h : Account sent₀ deeds x) (helapses : Elapses x x') : Account sent₀ deeds x' where
  whole hup := by
    rw [helapses.context] at hup
    rw [helapses.socket, helapses.outgoing, helapses.sent]
    exact h.whole hup
  exact := h.exact
  response := h.response
  standing := by
    rw [helapses.context]
    exact h.standing

/-- A deed that has sent nothing. -/
theorem unsent (h : Account sent₀ deeds x) (hd : d.Exact) (hnone : d.sending? = none) :
    Account sent₀ (deeds ++ [d]) x := by
  have hsendings : sendings (deeds ++ [d]) = sendings deeds := by
    simp [sendings, hnone]
  have hsent : sent (deeds ++ [d]) = sent deeds := by
    have hd := hd.sent
    rw [hnone] at hd
    simp [sent, hd]
  refine ⟨?_, ?_, ?_, ?_⟩
  · rw [hsent]
    exact h.whole
  · exact List.forall_mem_append.2 ⟨h.exact, List.forall_mem_singleton.2 hd⟩
  · rw [hsendings, hsent]
    exact h.response
  · rw [hsendings]
    exact h.standing

theorem sent (h : Account sent₀ deeds x) (hd : d.Exact) (hs : d.sending? = some s)
    (hsending : c.sending? x.context = some s) (hsent : Sent x s x') :
    Account sent₀ (deeds ++ [d]) x' := by
  have hsendings : sendings (deeds ++ [d]) = sendings deeds ++ [s] := by
    simp [sendings, hs]
  have hbytes : Request.sent (deeds ++ [d]) = Request.sent deeds ++ s.bytes := by
    have hd := hd.sent
    rw [hs] at hd
    simp [Request.sent, hd]
  refine ⟨fun hup => ?_, ?_, ?_, ?_⟩
  · have hbefore : x.context.phase ≠ .upgraded := fun heq => by
      have hopen := hsent.opened
      rw [heq] at hopen
      cases hopen
    obtain ⟨hsocket, hout, hwhole⟩ := h.whole hbefore
    rw [hsent.socket hup, hsent.transport hout, hbytes, ← List.append_assoc, ← hwhole]
    exact ⟨hsocket, hout, rfl⟩
  · exact List.forall_mem_append.2 ⟨h.exact, List.forall_mem_singleton.2 hd⟩
  · rw [hsendings, hbytes]
    exact h.response.sent h.standing hsending hsent
  · rw [hsendings]
    exact h.standing.of_sent hsent

/-- One more call. -/
theorem does (h : Account sent₀ deeds x) (hdoes : Does x c r x') (hd : d.Exact)
    (hs : d.sending? = c.sent? x.context r) : Account sent₀ (deeds ++ [d]) x' := by
  cases hdoes with
  | quiet hquiet hnone =>
    refine (h.quiet hquiet).unsent hd (hs.trans ?_)
    rcases hnone with ⟨e, rfl⟩ | hnone
    · rfl
    · exact sent?_eq_none hnone
  | sent hsending hsent => exact h.sent hd (hs.trans hsending) hsending hsent
  | aborted hup =>
    refine unsent ?_ hd (hs.trans (sent?_eq_none rfl))
    exact ⟨fun _ => h.whole hup, h.exact, h.response, h.standing.of_unsent rfl fun _ => rfl⟩
  | onSocket hon hkept =>
    refine unsent ?_ hd (hs.trans (sent?_eq_none (sending?_of_onSocket hon)))
    refine ⟨fun hup => ?_, h.exact, h.response, ?_⟩
    · rw [hkept.1] at hup
      rw [hkept.2 (h.whole hup).1]
      exact h.whole hup
    · rw [hkept.1]
      exact h.standing

end Account

theorem account_of_handling {x₀ : Exchange} (hhead : x₀.context.headSent = false)
    (hsocket : x₀.socket = none) (hout : x₀.wire.transport.outgoing = []) {deeds : List Deed}
    (h : Handling x₀ deeds x) : Account x₀.wire.transport.sent deeds x := by
  induction h with
  | start =>
    refine ⟨fun _ => ⟨hsocket, hout, (List.append_nil _).symm⟩, fun _ h => (nomatch h), .nothing,
      ⟨fun h => ?_, fun _ _ => rfl, fun _ h => (nomatch h)⟩⟩
    rw [hhead] at h
    cases h
  | @call deeds x₁ _ c ih =>
    exact ih.does (Deed.does ⟨c, x₁⟩) (Deed.exact_of_settled (d := ⟨c, x₁⟩) ih.settled) rfl
  | @readOn deeds x₁ _ r ih => exact ih.quiet (Act.quiet_doRead r x₁)
  | meanwhile _ helapses ih => exact ih.elapses helapses

/-- **The peer gets one response at most.**  Over the in-memory transport, whatever the handler of a
new request calls and whatever happens in between, the bytes that the context sends are those of one
response: none, or a head as it stands at the first successful write and the data of all successful
writes, or a whole response, or one answer to an upgrade.  These are the bytes that the peer gets, a
call that fails sends nothing, and nothing comes behind a whole response or an upgrade. -/
theorem response_of_handling {clock : Clock} {head : Head} {timeout : Int} {token : Token}
    {holder : Holder} {wire : Wire} (hwire : wire.transport.outgoing = []) {deeds : List Deed}
    (h : Handling { context := .new clock head timeout token holder, wire } deeds x) :
    Response (sendings deeds) (sent deeds) ∧
      (x.context.phase ≠ .upgraded →
        x.wire.transport.sent = wire.transport.sent ++ sent deeds) ∧
      (∀ d ∈ deeds, d.call.isOnSocket = false →
        d.after.wire.transport.sent = d.before.wire.transport.sent ++ d.sent) ∧
      (∀ d ∈ deeds, ∀ e, d.reply = .error e → d.sent = []) ∧
      ∀ earlier d later s, deeds = earlier ++ d :: later → d.sending? = some s → s.ends = true →
        sent later = [] := by
  have haccount := account_of_handling rfl rfl hwire h
  refine ⟨haccount.response, fun hup => (haccount.whole hup).2.2,
    fun d hd => (haccount.exact d hd).own, fun d hd e he => ?_, ?_⟩
  · rw [(haccount.exact d hd).sent, Deed.sending?, he]
    rfl
  · rintro earlier d later s rfl hs hends
    have hresponse := haccount.response
    rw [sendings, List.filterMap_append, List.filterMap_cons, hs] at hresponse
    have hnone := hresponse.alone hends
    refine List.flatMap_eq_nil_iff.2 fun d' hd' => ?_
    have hd'none : d'.sending? = none := List.filterMap_eq_nil_iff.1 hnone d' hd'
    rw [(haccount.exact d' (List.mem_append_right _ (List.mem_cons_of_mem _ hd'))).sent, hd'none]
    rfl

/-- Two pieces are written; a status that comes too late and a piece behind the end are refused. -/
theorem response_of_handling_written :
    ∃ (deeds : List Deed) (x : Exchange),
      Handling (Conversation.start (.new "GET" "/") (-1) {}).exchange deeds x ∧
        deeds.map (·.call) =
          [.setStatus 404, .write [1], .setStatus 200, .write [2, 3], .complete, .write [4]] ∧
        Response (sendings deeds) (sent deeds) ∧
        x.wire.transport.sent = sent deeds ∧
        sent deeds =
          Utf8.encode "HTTP/1.1 404 Not Found\r\nConnection: close\r\n\r\n" ++ [1, 2, 3] := by
  have handling : Handling (Conversation.start (.new "GET" "/") (-1) {}).exchange _ _ :=
    .call (.call (.call (.call (.call (.call .start (.setStatus 404)) (.write [1]))
      (.setStatus 200)) (.write [2, 3])) .complete) (.write [4])
  have h := response_of_handling rfl handling
  exact ⟨_, _, handling, rfl, h.1, h.2.1 (by decide +kernel), by decide +kernel⟩

end ScriptHost.Request
