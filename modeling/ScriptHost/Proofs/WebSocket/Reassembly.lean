import ScriptHost.Proofs.WebSocket.Read

/-!
# Messages out of frames

A peer sends messages, each in one frame or cut into several, and pings and pongs wherever it likes
between the frames.  This file is about what successive reads make of that.

* `play` — what the frames alone determine: the outcome of every read, with the rule that a read
  starts without fragments.
* `outcomes_take` — reads on a wire that works return what `play` says, however the bytes arrive.
* `Part` — what a peer says: a control frame, or a message with its cuts and with the control frames
  before each of its further frames.
* `reassembles_iff` — every message is returned whole and every control frame in its position if and
  only if no control frame stands between the frames of one message.  A read returns such a frame
  and forgets the fragments that it has, so the rest of the message finds none.
-/

set_option autoImplicit false

namespace ScriptHost

/-- What happens to a wire takes no longer than all that is known to come. -/
structure Wire.Ages (w w' : Wire) : Prop where
  cancellations : w'.clock.cancellations = w.clock.cancellations
  horizon : w'.horizon ≤ w.horizon

namespace Wire.Ages

theorem refl (w : Wire) : Ages w w := ⟨rfl, Nat.le_refl _⟩

theorem trans {w w' w'' : Wire} (h : Ages w w') (h' : Ages w' w'') : Ages w w'' :=
  ⟨h'.cancellations.trans h.cancellations, Nat.le_trans h'.horizon h.horizon⟩

theorem outlasts {w w' : Wire} (h : Ages w w') {d : Deadline} (hd : d.Outlasts w) : d.Outlasts w' :=
  hd.of_le h.cancellations h.horizon

end Wire.Ages

namespace WebSocket

/-! ## Frames on the wire -/

/-- A frame as a peer sends it. -/
structure Piece where
  frame : Frame
  mask : Option Mask

namespace Piece

/-- The bytes of a piece. -/
def bytes (p : Piece) : Bytes := writeFrame p.frame.final p.frame.opcode p.frame.payload p.mask

/-- A frame that is not too long, and does not close the connection. -/
structure Legal (p : Piece) : Prop where
  opcode : p.frame.opcode < 16
  notClose : p.frame.opcode ≠ Kind.close.opcode
  length : p.frame.payload.length ≤ maxMessage

theorem two_le_length_bytes (p : Piece) : 2 ≤ p.bytes.length := by
  have hlen : 1 ≤ (lengthBytes p.mask p.frame.payload.length).length := by
    rw [lengthBytes]
    split
    · exact Nat.le_refl _
    · split <;> exact Nat.succ_le_succ (Nat.zero_le _)
  rw [bytes, writeFrame.eq_def, List.length_cons, List.length_append]
  omega

end Piece

/-- The bytes of a talk. -/
def stream (talk : List Piece) : Bytes := talk.flatMap Piece.bytes

theorem length_le_length_stream (talk : List Piece) : talk.length ≤ (stream talk).length := by
  induction talk with
  | nil => exact Nat.le_refl _
  | cons p talk ih =>
    have hp := p.two_le_length_bytes
    rw [stream, List.flatMap_cons, List.length_append, List.length_cons]
    rw [stream] at ih
    omega

/-- The socket is open, nothing breaks its stream, and all that it writes is taken. -/
structure Ready (s : WebSocket) (w : Wire) : Prop where
  isOpen : s.closeReceived = false
  calm : w.Calm
  taking : w.Taking

namespace Ready

variable {s : WebSocket} {w : Wire}

/-- A frame that stands at the beginning of the stream is read. -/
theorem readFrame (h : Ready s w) {d : Deadline} (hd : d.Permits w (WebSocket.readFrame d w).2)
    {p : Piece} (hopcode : p.frame.opcode < 16) (hlength : p.frame.payload.length ≤ maxMessage)
    {rest : Bytes} (hunread : w.unread = p.bytes ++ rest) :
    ∃ w', WebSocket.readFrame d w = (.ok p.frame, w') ∧ w'.unread = rest ∧ Ready s w' ∧
      w.Ages w' := by
  rw [readFrame_eq] at hd
  have hrun := Frame.reader.run_of_calm readOperation h.calm hd
  rw [hunread, Piece.bytes, Frame.feed_writeFrame _ hopcode hlength] at hrun
  obtain ⟨c, w', hr, ht, hrest, hle⟩ := hrun
  exact ⟨w', by rw [readFrame_eq, hr], hrest,
    ⟨h.isOpen, ht.calm h.calm, ht.taking h.taking⟩, ht.cancellations, hle⟩

theorem of_wrote (h : Ready s w) {w' : Wire} {data : Bytes} (hwrote : w.Wrote data w') :
    Ready s w' where
  isOpen := h.isOpen
  calm a ha := by
    rw [hwrote.incoming] at ha
    exact h.calm a ha
  taking := hwrote.taking

/-- What is read is answered, and the stream stays as it is.  The socket stays as it is, too, unless
that was a close. -/
theorem answer (h : Ready s w) (kind : Kind) (data : Bytes)
    (hd : s.writeDeadline.Permits w (WebSocket.answer kind data (s, w)).2.2) :
    ∃ s' w', WebSocket.answer kind data (s, w) = (.ok (), (s', w')) ∧ w'.unread = w.unread ∧
      w.Ages w' ∧ (kind ≠ .close → s' = s ∧ Ready s w') := by
  have written (kind' : Kind) (s₁ : WebSocket) (hs₁ : s₁.writeDeadline = s.writeDeadline)
      (heq : WebSocket.answer kind data (s, w) = write kind' data (s₁, w)) :
      ∃ w', WebSocket.answer kind data (s, w) = (.ok (), (s₁, w')) ∧ w'.unread = w.unread ∧
        w.Ages w' ∧ Ready s w' := by
    rw [heq, write_eq, hs₁] at hd ⊢
    obtain ⟨w', hs, hwrote⟩ := Wire.send_of_taking "write websocket frame"
      (encodeFrame kind' data none) h.taking hd
    exact ⟨w', by rw [hs], congrArg (List.flatMap Arrival.data) hwrote.incoming,
      ⟨hwrote.cancellations, hwrote.horizon⟩, h.of_wrote hwrote⟩
  cases kind with
  | text | binary | pong => exact ⟨s, w, rfl, rfl, .refl w, fun _ => ⟨rfl, h⟩⟩
  | ping =>
    obtain ⟨w', hans, hunread, hages, h'⟩ := written .pong s rfl rfl
    exact ⟨s, w', hans, hunread, hages, fun _ => ⟨rfl, h'⟩⟩
  | close =>
    have hans := answer_close data s w
    by_cases hsent : s.closeSent
    · rw [if_pos hsent] at hans
      exact ⟨_, w, hans, rfl, .refl w, fun hne => absurd rfl hne⟩
    · rw [if_neg hsent] at hans
      obtain ⟨w', hans', hunread, hages, -⟩ := written .close
        { s with closeReceived := true, closeSent := true } rfl hans
      exact ⟨_, w', hans', hunread, hages, fun hne => absurd rfl hne⟩

end Ready

/-- The socket is open and all that it writes is taken in time. -/
structure Serving (s : WebSocket) (w : Wire) : Prop where
  isOpen : s.closeReceived = false
  calm : w.Calm
  taking : w.Taking
  patient : s.writeDeadline.Outlasts w

namespace Serving

variable {s : WebSocket} {w : Wire}

theorem ready (h : Serving s w) : Ready s w := ⟨h.isOpen, h.calm, h.taking⟩

/-- A socket that is still ready goes on serving. -/
theorem of_ready (h : Serving s w) {w' : Wire} (h' : Ready s w') (hages : w.Ages w') :
    Serving s w' :=
  ⟨h'.isOpen, h'.calm, h'.taking, hages.outlasts h.patient⟩

theorem readFrame (h : Serving s w) {d : Deadline} (hd : d.Outlasts w) {p : Piece} (hp : p.Legal)
    {rest : Bytes} (hunread : w.unread = p.bytes ++ rest) :
    ∃ w', WebSocket.readFrame d w = (.ok p.frame, w') ∧ w'.unread = rest ∧ Serving s w' ∧
      w.Ages w' := by
  obtain ⟨w', hframe, hrest, h', hages⟩ := h.ready.readFrame (.inl hd) hp.opcode hp.length hunread
  exact ⟨w', hframe, hrest, h.of_ready h' hages, hages⟩

/-- A control frame that does not close the connection is answered. -/
theorem answer (h : Serving s w) {kind : Kind} (hk : kind ≠ .close) (data : Bytes) :
    ∃ w', WebSocket.answer kind data (s, w) = (.ok (), (s, w')) ∧ w'.unread = w.unread ∧
      Serving s w' ∧ w.Ages w' := by
  obtain ⟨s', w', hans, hunread, hages, hready⟩ := h.ready.answer kind data (.inl h.patient)
  obtain ⟨rfl, h'⟩ := hready hk
  exact ⟨w', hans, hunread, h.of_ready h' hages, hages⟩

end Serving

/-! ## Reads -/

/-- What the frames of a stream mean to successive reads: each outcome, from the fragments that the
first of them has. -/
def play : Option Message → List Frame → List (Outcome Message)
  | _, [] => []
  | fragments, f :: fs =>
    match f.heard fragments with
    | .error e => .error e :: play none fs
    | .ok (.message m) => .ok m :: play none fs
    | .ok (.control m) => .ok m :: play none fs
    | .ok (.fragments m) => play (some m) fs

theorem opcode_control {f : Frame} {fragments : Option Message} {m : Message}
    (h : f.heard fragments = .ok (.control m)) : f.opcode = m.kind.opcode := by
  have hears := heard_spec f fragments
  rw [h] at hears
  cases hears with
  | control hkind => exact hkind

/-- **One read does what its frames say**, by induction on them: it goes on as long as it only hears
fragments, and what ends it leaves the other frames to the next read. -/
theorem readLoop_play (talk : List Piece) (hlegal : ∀ p ∈ talk, p.Legal) {d : Deadline} {fuel : Nat}
    (hfuel : talk.length < fuel) {fragments : Option Message} {s : WebSocket} {w : Wire}
    (h : Serving s w) (hd : d.Outlasts w) {rest : Bytes} (hunread : w.unread = stream talk ++ rest)
    {o : Outcome Message} {os : List (Outcome Message)}
    (hplay : play fragments (talk.map Piece.frame) = o :: os) :
    ∃ talk' w', readLoop d fuel fragments (s, w) = (o, (s, w')) ∧ w'.unread = stream talk' ++ rest ∧
      (∀ p ∈ talk', p.Legal) ∧ play none (talk'.map Piece.frame) = os ∧ Serving s w' ∧
        w.Ages w' := by
  induction talk generalizing fuel fragments w with
  | nil => cases hplay
  | cons p talk ih =>
    obtain ⟨fuel, rfl⟩ : ∃ n, fuel = n + 1 := ⟨fuel - 1, by omega⟩
    have hlegal' : ∀ p ∈ talk, p.Legal := fun q hq => hlegal q (List.mem_cons_of_mem _ hq)
    have hp := hlegal p (List.mem_cons_self ..)
    rw [stream, List.flatMap_cons, List.append_assoc] at hunread
    obtain ⟨w₁, hframe, hunread₁, h₁, hages₁⟩ := h.readFrame hd hp hunread
    rw [List.map_cons, play] at hplay
    rw [readLoop_succ, hframe]
    simp only
    rcases hheard : p.frame.heard fragments with e | ⟨m | m | m⟩
    · rw [hheard] at hplay
      cases hplay
      exact ⟨talk, w₁, rfl, hunread₁, hlegal', rfl, h₁, hages₁⟩
    · rw [hheard] at hplay
      cases hplay
      exact ⟨talk, w₁, rfl, hunread₁, hlegal', rfl, h₁, hages₁⟩
    · rw [hheard] at hplay
      cases hplay
      have hclose : m.kind ≠ .close := fun hk => hp.notClose (by rw [opcode_control hheard, hk])
      obtain ⟨w₂, hans, hunread₂, h₂, hages₂⟩ := h₁.answer hclose m.data
      simp only [hans]
      exact ⟨talk, w₂, rfl, hunread₂.trans hunread₁, hlegal', rfl, h₂, hages₁.trans hages₂⟩
    · rw [hheard] at hplay
      obtain ⟨talk', w', hr, hunread', hl, hp', h', hages'⟩ := ih hlegal'
        (Nat.lt_of_succ_lt_succ hfuel) h₁ (hages₁.outlasts hd) hunread₁ hplay
      exact ⟨talk', w', hr, hunread', hl, hp', h', hages₁.trans hages'⟩

/-- **Successive reads do what the frames say**, one outcome after the other, whatever stands behind
the frames and however they arrive. -/
theorem outcomes_take (ds : List Deadline) {k : Nat} (hk : k ≤ ds.length) {talk : List Piece}
    (hlegal : ∀ p ∈ talk, p.Legal) {s : WebSocket} {w : Wire} (h : Serving s w)
    (hds : ∀ d ∈ ds, d.Outlasts w) {rest : Bytes} (hunread : w.unread = stream talk ++ rest)
    (hplay : k ≤ (play none (talk.map Piece.frame)).length) :
    (outcomes ds (s, w)).take k = (play none (talk.map Piece.frame)).take k := by
  induction k generalizing ds talk w with
  | zero => rw [List.take_zero, List.take_zero]
  | succ k ih =>
    match ds with
    | [] => exact absurd hk (Nat.not_succ_le_zero k)
    | d :: ds =>
      rcases hp : play none (talk.map Piece.frame) with _ | ⟨o, os⟩
      · rw [hp] at hplay
        exact absurd hplay (Nat.not_succ_le_zero k)
      · have hfuel : talk.length < w.unread.length + 1 := by
          have hlen := length_le_length_stream talk
          rw [hunread, List.length_append]
          omega
        obtain ⟨talk', w', hr, hunread', hlegal', hp', h', hages⟩ :=
          readLoop_play talk hlegal hfuel h (hds d (List.mem_cons_self ..)) hunread hp
        have hread : read d (s, w) = (o, (s, w')) := by
          rw [read_eq, h.isOpen, if_neg Bool.false_ne_true, hr]
        have hrest := ih ds (Nat.le_of_succ_le_succ hk) hlegal' h'
          (fun d hd => hages.outlasts (hds d (List.mem_cons_of_mem _ hd))) hunread'
          (by rw [hp'] ; rw [hp] at hplay; exact Nat.le_of_succ_le_succ hplay)
        rw [outcomes, hread, List.take_succ_cons, List.take_succ_cons, hrest, hp']

/-! ## What a peer says -/

/-- A ping or a pong. -/
structure Control where
  kind : Kind
  data : Bytes
  mask : Option Mask

/-- A further piece of a message, with the control frames that stand before it. -/
structure Continuation where
  before : List Control
  data : Bytes
  mask : Option Mask

/-- A part of what a peer says. -/
inductive Part where
  | control (c : Control)
  /-- A message of one frame, or of a first frame and others. -/
  | message (kind : Kind) (first : Bytes) (mask : Option Mask) (others : List Continuation)

namespace Control

/-- The message that a control frame is. -/
def message (c : Control) : Message := ⟨c.kind, c.data⟩

/-- The piece that a control frame is. -/
def piece (c : Control) : Piece := ⟨⟨true, c.kind.opcode, c.data⟩, c.mask⟩

/-- The frame may be sent by a peer. -/
structure Legal (c : Control) : Prop where
  kind : c.kind = .ping ∨ c.kind = .pong
  length : c.data.length ≤ maxMessage

end Control

/-- The frames of the further pieces of a message; the last one is final. -/
def continuations : List Continuation → List Piece
  | [] => []
  | c :: cs => c.before.map Control.piece ++ ⟨⟨cs.isEmpty, 0, c.data⟩, c.mask⟩ :: continuations cs

namespace Part

/-- The pieces of a part. -/
def pieces : Part → List Piece
  | control c => [c.piece]
  | message kind first mask others =>
    ⟨⟨others.isEmpty, kind.opcode, first⟩, mask⟩ :: continuations others

/-- What reads are to return of a part: each control frame where it stands, and the message whole.
-/
def messages : Part → List Message
  | control c => [c.message]
  | message kind first _ others =>
    (others.flatMap Continuation.before).map Control.message ++
      [⟨kind, first ++ others.flatMap Continuation.data⟩]

/-- A text or a binary message that is not too long, and pings and pongs that are not. -/
def Legal : Part → Prop
  | control c => c.Legal
  | message kind first _ others =>
    (kind = .text ∨ kind = .binary) ∧
      (first ++ others.flatMap Continuation.data).length ≤ maxMessage ∧
        ∀ o ∈ others, ∀ c ∈ o.before, c.Legal

/-- No control frame stands between the frames of one message. -/
def Unbroken : Part → Prop
  | control _ => True
  | message _ _ _ others => ∀ o ∈ others, o.before = []

end Part

/-! ## What the frames of a peer mean -/

theorem play_control {c : Control} (hc : c.Legal) (fragments : Option Message) (fs : List Frame) :
    play fragments (c.piece.frame :: fs) = .ok c.message :: play none fs := by
  have hheard : c.piece.frame.heard fragments = .ok (.control c.message) := by
    rw [Control.message]
    obtain hk | hk := hc.kind
    · simp only [Control.piece, hk]
      rfl
    · simp only [Control.piece, hk]
      rfl
  rw [play, hheard]

theorem play_controls {cs : List Control} (hcs : ∀ c ∈ cs, c.Legal) (fs : List Frame) :
    play none (cs.map (·.piece.frame) ++ fs) =
      (cs.map Control.message).map .ok ++ play none fs := by
  induction cs with
  | nil => rfl
  | cons c cs ih =>
    rw [List.map_cons, List.cons_append, play_control (hcs c (List.mem_cons_self ..)),
      ih fun c' hc' => hcs c' (List.mem_cons_of_mem _ hc')]
    rfl

theorem heard_continuation {f : Frame} (hf : f.opcode = 0) {m : Message}
    (hlen : (m.data ++ f.payload).length ≤ maxMessage) :
    f.heard (some m) = .ok (if f.final then .message { m with data := m.data ++ f.payload }
      else .fragments { m with data := m.data ++ f.payload }) := by
  rw [Frame.heard.eq_def, if_pos hf]
  simp only
  rw [if_neg (Nat.not_lt.2 hlen)]

/-- Pieces that follow each other without a control frame make the message. -/
theorem play_unbroken (others : List Continuation) (hne : others ≠ [])
    (hunbroken : ∀ o ∈ others, o.before = []) (m : Message)
    (hlen : (m.data ++ others.flatMap Continuation.data).length ≤ maxMessage) (fs : List Frame) :
    play (some m) ((continuations others).map Piece.frame ++ fs) =
      .ok { m with data := m.data ++ others.flatMap Continuation.data } :: play none fs := by
  induction others generalizing m with
  | nil => exact absurd rfl hne
  | cons o others ih =>
    rw [List.flatMap_cons, ← List.append_assoc] at hlen
    have hle : (m.data ++ o.data).length ≤ maxMessage := by
      rw [List.length_append] at hlen
      omega
    rw [continuations, hunbroken o (List.mem_cons_self ..), List.map_nil, List.nil_append,
      List.map_cons, List.cons_append, play, heard_continuation rfl hle]
    cases others with
    | nil => simp [continuations]
    | cons o' others =>
      simp only [List.isEmpty_cons, Bool.false_eq_true, if_false]
      rw [ih (List.cons_ne_nil o' others) (fun o hm => hunbroken o (List.mem_cons_of_mem _ hm)) _
        hlen, List.append_assoc]
      rfl

/-- **A control frame between the frames of a message breaks it**: the reads return the first
control frames that do, and then the next piece of the message finds nothing that it could continue.
-/
theorem play_broken (others : List Continuation) (hbroken : ¬∀ o ∈ others, o.before = [])
    (hlegal : ∀ o ∈ others, ∀ c ∈ o.before, c.Legal) (m : Message)
    (hlen : (m.data ++ others.flatMap Continuation.data).length ≤ maxMessage) (fs : List Frame) :
    ∃ pre e post,
      play (some m) ((continuations others).map Piece.frame ++ fs) = pre ++ .error e :: post ∧
        pre.length ≤ (others.flatMap Continuation.before).length := by
  induction others generalizing m with
  | nil => exact absurd (fun o ho => absurd ho List.not_mem_nil) hbroken
  | cons o others ih =>
    rw [List.flatMap_cons, ← List.append_assoc] at hlen
    cases hb : o.before with
    | nil =>
      -- the piece continues the message, so a later one is broken
      have hle : (m.data ++ o.data).length ≤ maxMessage := by
        rw [List.length_append] at hlen
        omega
      have hbroken' : ¬∀ o ∈ others, o.before = [] := fun hall => hbroken fun o' ho' => by
        rcases List.mem_cons.1 ho' with rfl | ho'
        · exact hb
        · exact hall o' ho'
      have hempty : others.isEmpty = false := by
        cases others with
        | nil => exact absurd (fun o ho => absurd ho List.not_mem_nil) hbroken'
        | cons => rfl
      obtain ⟨pre, e, post, hplay, hpre⟩ := ih hbroken'
        (fun o ho => hlegal o (List.mem_cons_of_mem _ ho)) { m with data := m.data ++ o.data } hlen
      refine ⟨pre, e, post, ?_, by rwa [List.flatMap_cons, hb, List.nil_append]⟩
      rw [continuations, hb, List.map_nil, List.nil_append, List.map_cons, List.cons_append, play,
        heard_continuation rfl hle, hempty]
      exact hplay
    | cons c cs =>
      have hcs : ∀ c' ∈ c :: cs, c'.Legal := hb ▸ hlegal o (List.mem_cons_self ..)
      have hframes : (continuations (o :: others)).map Piece.frame ++ fs = c.piece.frame ::
          (cs.map (·.piece.frame) ++ (⟨others.isEmpty, 0, o.data⟩ ::
            ((continuations others).map Piece.frame ++ fs))) := by
        simp [continuations, hb]
      refine ⟨((c :: cs).map Control.message).map .ok,
        .illegalState "continuation frame without a message",
        play none ((continuations others).map Piece.frame ++ fs), ?_, ?_⟩
      · rw [hframes, play_control (hcs c (List.mem_cons_self ..)),
          play_controls fun c' hc' => hcs c' (List.mem_cons_of_mem _ hc')]
        rfl
      · rw [List.flatMap_cons, hb, List.length_map, List.length_map, List.length_append]
        exact Nat.le_add_right ..

theorem play_part {p : Part} (hp : p.Legal) (fs : List Frame) :
    (p.Unbroken → play none (p.pieces.map Piece.frame ++ fs) = p.messages.map .ok ++ play none fs) ∧
      (¬p.Unbroken → ∃ pre e post,
        play none (p.pieces.map Piece.frame ++ fs) = pre ++ .error e :: post ∧
          pre.length < p.messages.length) := by
  cases p with
  | control c => exact ⟨fun _ => play_control hp none fs, fun hn => absurd trivial hn⟩
  | message kind first mask others =>
    obtain ⟨hkind, hlen, hlegal⟩ := hp
    -- the first piece is all of the message, or the beginning of its fragments
    have hheard : Frame.heard ⟨others.isEmpty, kind.opcode, first⟩ none =
        .ok (if others.isEmpty then .message ⟨kind, first⟩ else .fragments ⟨kind, first⟩) := by
      obtain rfl | rfl := hkind <;> rfl
    have hfirst : play none ((Part.message kind first mask others).pieces.map Piece.frame ++ fs) =
        if others.isEmpty then
          .ok ⟨kind, first⟩ :: play none ((continuations others).map Piece.frame ++ fs)
        else play (some ⟨kind, first⟩) ((continuations others).map Piece.frame ++ fs) := by
      rw [Part.pieces, List.map_cons, List.cons_append, play, hheard]
      cases others <;> rfl
    rw [hfirst]
    cases others with
    | nil =>
      refine ⟨fun _ => ?_, fun hn => absurd (fun o ho => absurd ho List.not_mem_nil) hn⟩
      simp [continuations, Part.messages]
    | cons o others =>
      rw [List.isEmpty_cons, if_neg Bool.false_ne_true]
      refine ⟨fun hunbroken => ?_, fun hn => ?_⟩
      · have hnone : (o :: others).flatMap Continuation.before = [] :=
          List.flatMap_eq_nil_iff.2 hunbroken
        rw [play_unbroken _ (List.cons_ne_nil o others) hunbroken _ hlen, Part.messages, hnone]
        rfl
      · obtain ⟨pre, e, post, hplay, hpre⟩ :=
          play_broken (o :: others) hn hlegal ⟨kind, first⟩ hlen fs
        refine ⟨pre, e, post, hplay, ?_⟩
        rw [Part.messages, List.length_append, List.length_map, List.length_singleton]
        exact Nat.lt_succ_of_le hpre

theorem play_parts {parts : List Part} (hparts : ∀ p ∈ parts, p.Legal) (fs : List Frame) :
    ((∀ p ∈ parts, p.Unbroken) → play none ((parts.flatMap Part.pieces).map Piece.frame ++ fs) =
        (parts.flatMap Part.messages).map .ok ++ play none fs) ∧
      (¬(∀ p ∈ parts, p.Unbroken) → ∃ pre e post,
        play none ((parts.flatMap Part.pieces).map Piece.frame ++ fs) = pre ++ .error e :: post ∧
          pre.length < (parts.flatMap Part.messages).length) := by
  induction parts with
  | nil => exact ⟨fun _ => rfl, fun hn => absurd (fun p hp => absurd hp List.not_mem_nil) hn⟩
  | cons p parts ih =>
    obtain ⟨ihwhole, ihbroken⟩ := ih fun q hq => hparts q (List.mem_cons_of_mem _ hq)
    obtain ⟨hwhole, hbroken⟩ := play_part (hparts p (List.mem_cons_self ..))
      ((parts.flatMap Part.pieces).map Piece.frame ++ fs)
    rw [List.flatMap_cons, List.flatMap_cons, List.map_append, List.map_append, List.append_assoc,
      List.append_assoc, List.length_append]
    refine ⟨fun hall => ?_, fun hn => ?_⟩
    · rw [hwhole (hall p (List.mem_cons_self ..)),
        ihwhole fun q hq => hall q (List.mem_cons_of_mem _ hq)]
    · by_cases hp : p.Unbroken
      · have hn' : ¬∀ q ∈ parts, q.Unbroken := fun hall => hn fun q hq => by
          rcases List.mem_cons.1 hq with rfl | hq
          · exact hp
          · exact hall q hq
        obtain ⟨pre, e, post, hplay, hpre⟩ := ihbroken hn'
        refine ⟨p.messages.map .ok ++ pre, e, post, ?_, ?_⟩
        · rw [hwhole hp, hplay, List.append_assoc]
        · rw [List.length_append, List.length_map]
          omega
      · obtain ⟨pre, e, post, hplay, hpre⟩ := hbroken hp
        exact ⟨pre, e, post, hplay, Nat.lt_add_right _ hpre⟩

theorem legal_of_mem_pieces {p : Part} (hp : p.Legal) : ∀ q ∈ p.pieces, q.Legal := by
  have control {c : Control} (hc : c.Legal) : c.piece.Legal := by
    refine ⟨?_, ?_, hc.length⟩
    · obtain hk | hk := hc.kind <;> simp only [Control.piece, hk] <;> decide
    · obtain hk | hk := hc.kind <;> simp only [Control.piece, hk] <;> decide
  have others {os : List Continuation} (hlegal : ∀ o ∈ os, ∀ c ∈ o.before, c.Legal)
      (hlen : (os.flatMap Continuation.data).length ≤ maxMessage) :
      ∀ q ∈ continuations os, q.Legal := by
    induction os with
    | nil => exact fun q hq => absurd hq List.not_mem_nil
    | cons o os ih =>
      rw [List.flatMap_cons, List.length_append] at hlen
      intro q hq
      rw [continuations, List.mem_append, List.mem_cons] at hq
      obtain hq | rfl | hq := hq
      · obtain ⟨c, hc, rfl⟩ := List.mem_map.1 hq
        exact control (hlegal o (List.mem_cons_self ..) c hc)
      · exact ⟨(by decide : 0 < 16), (by decide : 0 ≠ 8), by show o.data.length ≤ _; omega⟩
      · exact ih (fun o ho => hlegal o (List.mem_cons_of_mem _ ho)) (by omega) q hq
  cases p with
  | control c =>
    intro q hq
    obtain rfl := List.mem_singleton.1 hq
    exact control hp
  | message kind first mask os =>
    obtain ⟨hkind, hlen, hlegal⟩ := hp
    rw [List.length_append] at hlen
    intro q hq
    obtain rfl | hq := List.mem_cons.1 hq
    · refine ⟨?_, ?_, by show first.length ≤ _; omega⟩
      · obtain rfl | rfl := hkind <;> exact of_decide_eq_true rfl
      · obtain rfl | rfl := hkind <;> exact of_decide_eq_true rfl
    · exact others hlegal (by omega) q hq

/-- **When messages are reassembled.**  A peer says what it likes in texts, binaries, pings and
pongs, in as many frames as it likes, masked or not, and however its bytes arrive on a wire that
works.  Successive reads return every message whole and every control frame in its position if and
only if no control frame stands between the frames of one message. -/
theorem reassembles_iff (parts : List Part) (hparts : ∀ p ∈ parts, p.Legal) {s : WebSocket}
    {w : Wire} (h : Serving s w) {ds : List Deadline} (hds : ∀ d ∈ ds, d.Outlasts w)
    (hcount : ds.length = (parts.flatMap Part.messages).length) (rest : Bytes)
    (hunread : w.unread = stream (parts.flatMap Part.pieces) ++ rest) :
    outcomes ds (s, w) = (parts.flatMap Part.messages).map .ok ↔ ∀ p ∈ parts, p.Unbroken := by
  have hlegal : ∀ q ∈ parts.flatMap Part.pieces, q.Legal := fun q hq => by
    obtain ⟨p, hp, hq⟩ := List.mem_flatMap.1 hq
    exact legal_of_mem_pieces (hparts p hp) q hq
  obtain ⟨hwhole, hbroken⟩ := play_parts hparts []
  rw [List.append_nil] at hwhole hbroken
  constructor
  · intro hout
    by_contra hn
    obtain ⟨pre, e, post, hplay, hpre⟩ := hbroken hn
    -- the reads come to the failure, where a message is due
    have htake := outcomes_take ds (k := pre.length + 1) (by omega) hlegal h hds hunread
      (by rw [hplay, List.length_append, List.length_cons]; omega)
    rw [hplay, hout, List.take_length_add_append, List.take_succ_cons, List.take_zero] at htake
    have hmem : Except.error e ∈ ((parts.flatMap Part.messages).map .ok).take (pre.length + 1) := by
      rw [htake]
      exact List.mem_append_right _ (List.mem_singleton_self _)
    obtain ⟨m, -, hm⟩ := List.mem_map.1 (List.mem_of_mem_take hmem)
    cases hm
  · intro hall
    have hplay := hwhole hall
    rw [play, List.append_nil] at hplay
    have htake := outcomes_take ds (Nat.le_refl ds.length) hlegal h hds hunread
      (by rw [hplay, List.length_map, hcount])
    rw [hplay, List.take_of_length_le (by rw [length_outcomes]),
      List.take_of_length_le (by rw [List.length_map, hcount])] at htake
    exact htake

/-! ## A greeting -/

/-- A wire on which these bytes are there and nothing else ever comes. -/
def carrying (bytes : Bytes) : Wire := { transport := { incoming := [.bytes 0 bytes] } }

theorem serving_carrying (bytes : Bytes) :
    Serving { writeDeadline := .never } (carrying bytes) where
  isOpen := rfl
  calm a ha := by
    obtain rfl := List.mem_singleton.1 ha
    trivial
  taking := ⟨fun a ha => absurd ha List.not_mem_nil, rfl⟩
  patient := Deadline.never_outlasts _

/-- A greeting in two pieces, with control frames between them. -/
def greeting (between : List Control) : Part :=
  .message .text [104, 101, 108] none [⟨between, [108, 111], none⟩]

theorem legal_greeting {between : List Control} (h : ∀ c ∈ between, c.Legal) :
    (greeting between).Legal := by
  refine ⟨.inl rfl, (by decide : 5 ≤ maxMessage), fun o ho => ?_⟩
  obtain rfl := List.mem_singleton.1 ho
  exact h

/-- A ping behind the greeting leaves it whole. -/
theorem reassembles_greeting :
    outcomes [.never, .never] ({ writeDeadline := .never },
        carrying (stream ((greeting []).pieces ++ [Control.piece ⟨.ping, [], none⟩]))) =
      [.ok ⟨.text, [104, 101, 108, 108, 111]⟩, .ok ⟨.ping, []⟩] := by
  have hping : Control.Legal ⟨.ping, [], none⟩ := ⟨.inl rfl, Nat.zero_le _⟩
  refine (reassembles_iff [greeting [], .control ⟨.ping, [], none⟩] ?_ (serving_carrying _)
    (fun d hd => ?_) rfl [] rfl).2 ?_
  · intro p hp
    rcases List.mem_cons.1 hp with rfl | hp
    · exact legal_greeting fun c hc => absurd hc List.not_mem_nil
    · obtain rfl := List.mem_singleton.1 hp
      exact hping
  · obtain rfl : d = .never := by simpa using hd
    exact Deadline.never_outlasts _
  · intro p hp
    rcases List.mem_cons.1 hp with rfl | hp
    · intro o ho
      obtain rfl := List.mem_singleton.1 ho
      rfl
    · obtain rfl := List.mem_singleton.1 hp
      trivial

/-- The same ping between the two pieces is returned, and the greeting is lost. -/
theorem greeting_broken :
    let parts := [greeting [⟨.ping, [], none⟩]]
    let reads := outcomes [.never, .never]
      ({ writeDeadline := .never }, carrying (stream (parts.flatMap Part.pieces)))
    (∀ p ∈ parts, p.Legal) ∧
      reads = [.ok ⟨.ping, []⟩, .error (.illegalState "continuation frame without a message")] ∧
      reads ≠ (parts.flatMap Part.messages).map .ok := by
  refine ⟨fun p hp => ?_, rfl, fun h => ?_⟩
  · obtain rfl := List.mem_singleton.1 hp
    refine legal_greeting fun c hc => ?_
    obtain rfl := List.mem_singleton.1 hc
    exact ⟨.inl rfl, Nat.zero_le _⟩
  · cases List.cons.inj (List.cons.inj h).2 |>.1

end WebSocket

end ScriptHost
