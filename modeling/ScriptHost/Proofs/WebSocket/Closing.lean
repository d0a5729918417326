import ScriptHost.Proofs.WebSocket.Read

/-!
# Closing a WebSocket

A close frame leaves a WebSocket through three doors: it is sent as a message, it closes this side
of the connection, or it echoes the close of the peer.  The last two note that the close has been
sent, and all three look at the note before they write.  The first one does not note it, so behind a
close that is sent as a message everything may follow, another close frame too.

* `Action.frames` — the frames that an action sets out to write.
* `Orderly` — frames of which one at most is a close, with nothing but pings and pongs behind it.
* `orderly_iff` — the frames of a run, with a close at the end, are orderly if and only if no close
  has been sent as a message.
-/

set_option autoImplicit false

namespace ScriptHost.WebSocket

/-! ## What actions write -/

/-- The bytes of messages that are written in one frame each. -/
def encoded (frames : List Message) : Bytes :=
  frames.flatMap fun m => encodeFrame m.kind m.data none

/-- What a handler does with a web socket. -/
inductive Action where
  | send (m : Message)
  | close
  | read (d : Deadline)
  /-- Sets the deadline of what is written from then on. -/
  | limit (d : Deadline)

/-- The frames that answer a message. -/
def replies (s : WebSocket) (m : Message) : List Message :=
  match m.kind with
  | .ping => [⟨.pong, m.data⟩]
  | .close => if s.closeSent then [] else [m]
  | _ => []

namespace Action

/-- The call that an action makes. -/
def act : Action → Call Unit
  | send m => WebSocket.send m
  | close => WebSocket.close
  | read d => do
    let _ ← WebSocket.read d
  | limit d => do
    setSocket { ← getSocket with writeDeadline := d }

/-- The frames that an action sets out to write. -/
def frames : Action → WebSocket × Wire → List Message
  | send m, (s, _) => if s.closeSent then [] else [m]
  | close, (s, _) => if s.closeSent then [] else [⟨.close, Sha1.bigEndian 2 normalClosure⟩]
  | read d, (s, w) =>
    if s.closeReceived then []
    else
      match (hearLoop d (w.unread.length + 1) none w).1 with
      | .ok m => replies s m
      | .error _ => []
  | limit _, _ => []

/-- A close is sent as a message. -/
def sendsClose : Action → WebSocket × Wire → Bool
  | send m, (s, _) => m.kind = .close && !s.closeSent
  | _, _ => false

end Action

/-- What comes of the frames that an action sets out to write. -/
structure Writes (σ : WebSocket × Wire) (frames : List Message) (sendsClose : Bool)
    (r : Outcome Unit) (σ' : WebSocket × Wire) : Prop where
  accepts : σ.2.Accepts (encoded frames) r σ'.2
  /-- Every close frame is noted, but for one that is sent as a message. -/
  noted : frames.countP (·.kind = .close) + σ.1.closeSent.toNat =
    sendsClose.toNat + σ'.1.closeSent.toNat
  /-- When a close has been noted only pongs follow. -/
  pongs : σ.1.closeSent = true → ∀ m ∈ frames, m.kind = .pong
  single : frames.length ≤ 1

theorem countP_one {α : Type} (p : α → Bool) (a : α) : [a].countP p = (p a).toNat := by
  rw [List.countP_singleton]
  cases p a <;> rfl

theorem write_apply (kind : Kind) (data : Bytes) (s : WebSocket) (w : Wire) :
    ∃ r w', write kind data (s, w) = (r, (s, w')) ∧ w.Accepts (encoded [⟨kind, data⟩]) r w' := by
  refine ⟨_, _, rfl, ?_⟩
  have haccepts :=
    w.send_accepts s.writeDeadline "write websocket frame" (encodeFrame kind data none)
  rwa [encoded, List.flatMap_singleton]

variable {s : WebSocket} {w : Wire}

theorem writes_nothing {r : Outcome Unit} {s' : WebSocket} {w' : Wire}
    (hs : s'.closeSent = s.closeSent)
    (hw : w'.transport.sent = w.transport.sent) : Writes (s, w) [] false r (s', w') where
  accepts := .whole (hw.trans (List.append_nil _).symm)
  noted := by simp [hs]
  pongs := fun _ => nofun
  single := Nat.zero_le 1

/-- A close that is noted when it is written, and so it is written once. -/
theorem writes_noted (data : Bytes) (s : WebSocket) {s' : WebSocket} (hs' : s'.closeSent = true)
    (w : Wire) :
    let act : Call Unit := if s.closeSent then pure () else write .close data
    Writes (s, w) (if s.closeSent then [] else [⟨.close, data⟩]) false (act (s', w)).1
      (act (s', w)).2 := by
  dsimp only
  cases hs : s.closeSent with
  | true => exact writes_nothing (hs'.trans hs.symm) rfl
  | false =>
    obtain ⟨r, w', hwrite, haccepts⟩ := write_apply .close data s' w
    simp only [Bool.false_eq_true, if_false]
    rw [hwrite]
    exact ⟨haccepts, by simp [hs, hs'], fun h => by simp [hs] at h, Nat.le_refl 1⟩

theorem writes_answer (m : Message) (s : WebSocket) (w : Wire) :
    Writes (s, w) (replies s m) false (answer m.kind m.data (s, w)).1
      (answer m.kind m.data (s, w)).2 := by
  obtain ⟨kind, data⟩ := m
  cases kind with
  | text | binary | pong => exact writes_nothing rfl rfl
  | ping =>
    obtain ⟨r, w', hwrite, haccepts⟩ := write_apply .pong data s w
    have hanswer : answer .ping data (s, w) = write .pong data (s, w) := rfl
    dsimp only
    rw [hanswer, hwrite]
    exact ⟨haccepts, rfl, fun _ m hm => by rw [List.mem_singleton.1 hm], Nat.le_refl 1⟩
  | close =>
    dsimp only
    rw [answer_close]
    exact writes_noted data s rfl w

theorem Writes.of_sent {frames : List Message} {own : Bool} {r : Outcome Unit}
    {σ' : WebSocket × Wire} {w₀ : Wire} (h : Writes (s, w) frames own r σ')
    (hsent : w.transport.sent = w₀.transport.sent) : Writes (s, w₀) frames own r σ' := by
  obtain ⟨accepted, hprefix, haccepted, hall⟩ := h.accepts
  exact ⟨⟨accepted, hprefix, haccepted.trans (by rw [hsent]), hall⟩, h.noted, h.pongs, h.single⟩

theorem close_apply (s : WebSocket) (w : Wire) :
    close (s, w) =
      (if s.closeSent then pure () else write .close (Sha1.bigEndian 2 normalClosure) : Call Unit)
        ({ s with closeSent := true }, w) := by
  rw [close, Call.bind_apply, getSocket]
  dsimp only
  rcases s with ⟨limit, _ | _, received⟩ <;> rfl

/-- **What an action writes.** -/
theorem writes_act (a : Action) (s : WebSocket) (w : Wire) :
    Writes (s, w) (a.frames (s, w)) (a.sendsClose (s, w)) (a.act (s, w)).1 (a.act (s, w)).2 := by
  cases a with
  | limit d => exact writes_nothing rfl rfl
  | send m =>
    have hact : (Action.send m).act (s, w) =
        (if s.closeSent then throw (.illegalState "websocket is closed") else write m.kind m.data :
          Call Unit) (s, w) := by
      rw [Action.act, send, Call.bind_apply, getSocket]
      dsimp only
      split <;> rfl
    rw [hact, Action.frames, Action.sendsClose]
    cases hs : s.closeSent with
    | true =>
      simp only [Bool.not_true, Bool.and_false, if_true]
      exact writes_nothing rfl rfl
    | false =>
      obtain ⟨r, w', hwrite, haccepts⟩ := write_apply m.kind m.data s w
      simp only [Bool.false_eq_true, if_false]
      rw [hwrite]
      exact ⟨haccepts, by rw [countP_one, Bool.not_false, Bool.and_true],
        fun h => by simp [hs] at h, Nat.le_refl 1⟩
  | close =>
    show Writes (s, w) (Action.close.frames (s, w)) false _ _
    rw [Action.act, close_apply, Action.frames]
    exact writes_noted (Sha1.bigEndian 2 normalClosure) s rfl w
  | read d =>
    show Writes (s, w) ((Action.read d).frames (s, w)) false _ _
    rw [Action.act, Call.bind_apply, read_eq, Action.frames]
    split
    · exact writes_nothing rfl rfl
    · obtain ⟨c, htook⟩ := took_hearLoop d (w.unread.length + 1) none w
      rw [readLoop_eq d _ (fun _ h => by cases h) s w]
      rcases hheard : hearLoop d (w.unread.length + 1) none w with ⟨e | m, w'⟩ <;>
        rw [hheard] at htook <;> have hsent := congrArg Transport.sent htook.others
      · exact writes_nothing rfl hsent
      · have hanswer := (writes_answer m s w').of_sent hsent
        dsimp only
        rcases hr : answer m.kind m.data (s, w') with ⟨e | u, σ⟩ <;> rw [hr] at hanswer <;>
          exact hanswer

/-! ## Runs -/

/-- An action, and the WebSocket as it found it. -/
structure Deed where
  action : Action
  before : WebSocket × Wire

namespace Deed

/-- What comes of the action. -/
def reply (d : Deed) : Outcome Unit := (d.action.act d.before).1

/-- The socket behind the action. -/
def after (d : Deed) : WebSocket × Wire := (d.action.act d.before).2

/-- The frames that the action sets out to write. -/
def frames (d : Deed) : List Message := d.action.frames d.before

/-- Whether the action sends a close as a message. -/
def sendsClose (d : Deed) : Bool := d.action.sendsClose d.before

/-- The bytes that get accepted. -/
def sent (d : Deed) : Bytes := d.after.2.transport.sent.drop d.before.2.transport.sent.length

theorem writes (d : Deed) : Writes d.before d.frames d.sendsClose d.reply d.after :=
  writes_act d.action d.before.1 d.before.2

/-- What gets accepted is a beginning of the frames, and all of them if the action succeeds. -/
theorem sent_spec (d : Deed) :
    d.after.2.transport.sent = d.before.2.transport.sent ++ d.sent ∧ d.sent <+: encoded d.frames ∧
      (d.reply = .ok () → d.sent = encoded d.frames) := by
  obtain ⟨accepted, hprefix, hsent, hall⟩ := d.writes.accepts
  have heq : d.sent = accepted := by rw [Deed.sent, hsent, List.drop_left]
  rw [heq]
  exact ⟨hsent, hprefix, hall⟩

end Deed

/-- The frames that some actions write, in order. -/
def frames (deeds : List Deed) : List Message := deeds.flatMap Deed.frames

/-- Actions one after the other.  In between anything may become of the wire, but what has been sent
stays. -/
inductive Using (σ₀ : WebSocket × Wire) : List Deed → WebSocket × Wire → Prop
  | start : Using σ₀ [] σ₀
  | act {deeds : List Deed} {σ : WebSocket × Wire} : Using σ₀ deeds σ → ∀ a,
      Using σ₀ (deeds ++ [⟨a, σ⟩]) (Deed.after ⟨a, σ⟩)
  | meanwhile {deeds : List Deed} {σ : WebSocket × Wire} {w : Wire} : Using σ₀ deeds σ →
      w.transport.sent = σ.2.transport.sent → Using σ₀ deeds (σ.1, w)

/-- One frame at most is a close, and behind it there are neither messages nor another close. -/
def Orderly (frames : List Message) : Prop :=
  frames.countP (·.kind = .close) ≤ 1 ∧
    frames.Pairwise fun m m' => m.kind = .close →
      m'.kind ≠ .text ∧ m'.kind ≠ .binary ∧ m'.kind ≠ .close

/-- What has been noted of the frames of a run. -/
structure Account (w₀ : Wire) (deeds : List Deed) (σ : WebSocket × Wire) : Prop where
  sent : σ.2.transport.sent = w₀.transport.sent ++ deeds.flatMap Deed.sent
  noted : (frames deeds).countP (·.kind = .close) =
    deeds.countP Deed.sendsClose + σ.1.closeSent.toNat
  behind : (∀ d ∈ deeds, d.sendsClose = false) → (frames deeds).Pairwise fun m m' =>
    m.kind = .close → m'.kind ≠ .text ∧ m'.kind ≠ .binary ∧ m'.kind ≠ .close

namespace Account

variable {w₀ : Wire} {deeds : List Deed} {σ : WebSocket × Wire}

theorem act (h : Account w₀ deeds σ) (a : Action) :
    Account w₀ (deeds ++ [⟨a, σ⟩]) (Deed.after ⟨a, σ⟩) := by
  have hwrites := Deed.writes ⟨a, σ⟩
  refine ⟨?_, ?_, fun hnone => ?_⟩
  · rw [(Deed.sent_spec ⟨a, σ⟩).1, h.sent, List.flatMap_append, List.flatMap_singleton,
      List.append_assoc]
  · have hnoted := hwrites.noted
    have hdeeds := h.noted
    rw [frames] at hdeeds
    rw [frames, List.flatMap_append, List.flatMap_singleton, List.countP_append, List.countP_append,
      countP_one]
    dsimp only at hnoted
    omega
  · obtain ⟨hnone, -⟩ := List.forall_mem_append.1 hnone
    rw [frames, List.flatMap_append, List.flatMap_singleton]
    refine List.pairwise_append.2 ⟨h.behind hnone, ?_, fun m hm m' hm' hclose => ?_⟩
    · have hsingle := hwrites.single
      rcases hframes : Deed.frames ⟨a, σ⟩ with _ | ⟨m, _ | ⟨m', rest⟩⟩
      · exact .nil
      · exact List.pairwise_singleton ..
      · rw [hframes] at hsingle
        simp at hsingle
    · -- the close has been noted, as it has not been sent as a message
      have hcount : 0 < (frames deeds).countP (·.kind = .close) :=
        List.countP_pos_iff.2 ⟨m, hm, by simpa using hclose⟩
      have hsends : deeds.countP Deed.sendsClose = 0 :=
        List.countP_eq_zero.2 fun d hd => by simp [hnone d hd]
      have hnoted : σ.1.closeSent = true := by
        rw [h.noted, hsends, Nat.zero_add] at hcount
        cases hs : σ.1.closeSent with
        | true => rfl
        | false =>
          rw [hs] at hcount
          cases hcount
      rw [hwrites.pongs hnoted m' hm']
      exact ⟨nofun, nofun, nofun⟩

theorem orderly (h : Account w₀ deeds σ) (hnone : ∀ d ∈ deeds, d.sendsClose = false) :
    Orderly (frames deeds) := by
  have hsends : deeds.countP Deed.sendsClose = 0 :=
    List.countP_eq_zero.2 fun d hd => by simp [hnone d hd]
  refine ⟨?_, h.behind hnone⟩
  rw [h.noted, hsends, Nat.zero_add]
  exact Bool.toNat_le _

end Account

theorem account_of_using {limit : Deadline} {w₀ : Wire} {deeds : List Deed} {σ : WebSocket × Wire}
    (h : Using ({ writeDeadline := limit }, w₀) deeds σ) : Account w₀ deeds σ := by
  induction h with
  | start => exact ⟨(List.append_nil _).symm, rfl, fun _ => .nil⟩
  | act _ a ih => exact ih.act a
  | meanwhile _ hsent ih => exact ⟨hsent.trans ih.sent, ih.noted, ih.behind⟩

theorem closeSent_close (s : WebSocket) (w : Wire) :
    (Deed.after ⟨.close, (s, w)⟩).1.closeSent = true := by
  rw [Deed.after, Action.act, close_apply]
  split
  · rfl
  · obtain ⟨r, w', hwrite, -⟩ :=
      write_apply .close (Sha1.bigEndian 2 normalClosure) { s with closeSent := true } w
    rw [hwrite]

/-- **The frames of a WebSocket are orderly as long as no close is sent as a message.**  Whatever is
sent and read on a new WebSocket, whatever the peer sends, and wherever this side closes: what gets
accepted is, for every action, a beginning of the frames that the action sets out to write, and all
of them if it succeeds.  Of these frames one at most is a close, with no message and no other close
behind it, if no close has been sent as a message; and if one has been, then closing makes it
two. -/
theorem orderly_iff {limit : Deadline} {w₀ : Wire} {deeds : List Deed} {σ : WebSocket × Wire}
    (h : Using ({ writeDeadline := limit }, w₀) deeds σ) :
    σ.2.transport.sent = w₀.transport.sent ++ deeds.flatMap Deed.sent ∧
      (∀ d ∈ deeds, d.sent <+: encoded d.frames ∧ (d.reply = .ok () → d.sent = encoded d.frames)) ∧
      ((∀ d ∈ deeds, d.sendsClose = false) → Orderly (frames deeds)) ∧
      (Orderly (frames (deeds ++ [⟨.close, σ⟩])) ↔ ∀ d ∈ deeds, d.sendsClose = false) := by
  have haccount := account_of_using h
  have hclosing := account_of_using (h.act .close)
  refine ⟨haccount.sent, fun d _ => d.sent_spec.2, haccount.orderly, fun horderly d hd => ?_,
    fun hnone => hclosing.orderly (List.forall_mem_append.2 ⟨hnone, ?_⟩)⟩
  · have hcount := horderly.1
    rw [hclosing.noted, closeSent_close, List.countP_append] at hcount
    have hsends : deeds.countP Deed.sendsClose = 0 := by
      simp only [Bool.toNat_true] at hcount
      omega
    simpa using List.countP_eq_zero.1 hsends d hd
  · exact fun d hd => by rw [List.mem_singleton.1 hd]; rfl

/-- The peer pings and closes; what is sent behind the echo is refused, and closing writes
nothing. -/
theorem orderly_iff_echo :
    let w₀ : Wire := { transport := { incoming := [.bytes 0 [0x89, 0x00], .bytes 5 [0x88, 0x00]] } }
    ∃ (deeds : List Deed) (σ : WebSocket × Wire),
      Using ({ writeDeadline := .never }, w₀) deeds σ ∧
        deeds.map Deed.reply =
          [.ok (), .ok (), .ok (), .error (.illegalState "websocket is closed"), .ok ()] ∧
        (∀ d ∈ deeds, d.sendsClose = false) ∧ Orderly (frames deeds) ∧
        frames deeds = [⟨.text, [104, 105]⟩, ⟨.pong, []⟩, ⟨.close, []⟩] ∧
        σ.2.transport.sent = [0x81, 0x02, 104, 105, 0x8a, 0x00, 0x88, 0x00] := by
  intro w₀
  have husing : Using ({ writeDeadline := .never }, w₀) _ _ :=
    .act (.act (.act (.act (.act .start (.send ⟨.text, [104, 105]⟩)) (.read .never)) (.read .never))
      (.send ⟨.binary, [1]⟩)) .close
  refine ⟨_, _, husing, by decide +kernel, ?none, (orderly_iff husing).2.2.1 ?none,
    by decide +kernel, by decide +kernel⟩
  decide +kernel

/-- **Two close frames are sent**: the first one as a message, and the other when this side
closes. -/
theorem close_twice :
    ∃ (deeds : List Deed) (σ : WebSocket × Wire),
      Using ({ writeDeadline := .never }, {}) deeds σ ∧ deeds.map Deed.reply = [.ok (), .ok ()] ∧
        σ.2.transport.sent = encoded (frames deeds) ∧
        frames deeds = [⟨.close, []⟩, ⟨.close, [0x03, 0xe8]⟩] ∧ ¬ Orderly (frames deeds) :=
  ⟨_, _, .act (.act .start (.send ⟨.close, []⟩)) .close, by decide +kernel, by decide +kernel,
    by decide +kernel, fun h => absurd h.1 (by decide +kernel)⟩

end ScriptHost.WebSocket
