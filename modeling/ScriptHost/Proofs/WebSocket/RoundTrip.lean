import ScriptHost.Proofs.WebSocket.Reassembly

/-!
# Messages that are encoded are read again

A message may be put into the stream as it stands, in one frame and with a mask or without one.
Whatever its kind and its length, a read takes exactly its bytes and returns it (`Ready.read`), so a
list of such messages is read back in order, and what stands behind them is left
(`outcomes_encoded`).  A close ends the list: nothing is read behind it.

Nothing is asked of the deadlines but that they have not passed when the reads return (`InTime`);
what stands further back in the stream may come later than that.
-/

set_option autoImplicit false

namespace ScriptHost.WebSocket

/-! ## Time -/

/-- Time passes while a frame is answered. -/
theorem passes_answer (kind : Kind) (data : Bytes) (s : WebSocket) (w : Wire) :
    w.clock.Passes (answer kind data (s, w)).2.2.clock := by
  have written (kind' : Kind) (s₁ : WebSocket) :
      w.clock.Passes (write kind' data (s₁, w)).2.2.clock := w.passes_send ..
  cases kind with
  | text | binary | pong => exact .refl _
  | ping => exact written .pong s
  | close =>
    rw [answer_close]
    split
    · exact .refl _
    · exact written .close _

/-- Time passes behind the first frame of a loop, if it does behind those that follow. -/
theorem passes_round {d : Deadline} {fuel : Nat} {s : WebSocket}
    (hloop : ∀ (fragments : Option Message) (w : Wire),
      w.clock.Passes (readLoop d fuel fragments (s, w)).2.2.clock)
    (fragments : Option Message) (w : Wire) :
    (readFrame d w).2.clock.Passes (readLoop d (fuel + 1) fragments (s, w)).2.2.clock := by
  rw [readLoop_succ]
  rcases readFrame d w with ⟨e | frame, w₁⟩
  · exact .refl _
  · simp only
    rcases frame.heard fragments with e | ⟨m | m | m⟩
    · exact .refl _
    · exact .refl _
    · have hpass := passes_answer m.kind m.data s w₁
      simp only
      rcases hans : answer m.kind m.data (s, w₁) with ⟨e | u, σ⟩
      all_goals
        rw [hans] at hpass
        exact hpass
    · exact hloop (some m) w₁

theorem passes_readLoop (d : Deadline) (fuel : Nat) (fragments : Option Message) (s : WebSocket)
    (w : Wire) : w.clock.Passes (readLoop d fuel fragments (s, w)).2.2.clock := by
  induction fuel generalizing fragments w with
  | zero => exact .refl _
  | succ fuel ih =>
    have hframe := Frame.reader.passes_run d readOperation w
    rw [← readFrame_eq] at hframe
    exact hframe.trans (passes_round ih fragments w)

/-- A frame is read before the read of its message is over. -/
theorem passes_read {d : Deadline} {s : WebSocket} (hopen : s.closeReceived = false) (w : Wire) :
    (readFrame d w).2.clock.Passes (read d (s, w)).2.2.clock := by
  rw [read_eq, hopen, if_neg Bool.false_ne_true]
  exact passes_round (fun fragments w => passes_readLoop d _ fragments s w) none w

/-- No deadline passes before its read is over, nor does that of writing before the last one is. -/
def InTime : List Deadline → WebSocket × Wire → Prop
  | [], _ => True
  | d :: ds, σ =>
    (d.isExpired (read d σ).2.2.clock = false ∧
      σ.1.writeDeadline.isExpired (read d σ).2.2.clock = false) ∧ InTime ds (read d σ).2

/-! ## Messages -/

/-- A message that is encoded in one frame. -/
structure Parcel where
  message : Message
  mask : Option Mask

namespace Parcel

/-- The bytes of a parcel. -/
def bytes (p : Parcel) : Bytes := encodeFrame p.message.kind p.message.data p.mask

/-- The piece that a parcel is sent as. -/
def piece (p : Parcel) : Piece := ⟨⟨true, p.message.kind.opcode, p.message.data⟩, p.mask⟩

theorem bytes_piece (p : Parcel) : p.piece.bytes = p.bytes := rfl

end Parcel

theorem Kind.opcode_lt (kind : Kind) : kind.opcode < 16 := by
  cases kind <;> decide

/-- A final frame of any kind is a message of its own, whatever fragments there are. -/
theorem heard_piece (p : Parcel) (fragments : Option Message) :
    p.piece.frame.heard fragments =
      .ok (if p.message.kind.isControl then .control p.message else .message p.message) := by
  obtain ⟨⟨kind, data⟩, mask⟩ := p
  cases kind <;> rfl

/-- **A message that is encoded is read again**, from exactly the bytes of its frame. -/
theorem Ready.read {s : WebSocket} {w : Wire} (h : Ready s w) {d : Deadline} {p : Parcel}
    (htime : InTime [d] (s, w)) (hlength : p.message.data.length ≤ maxMessage) {rest : Bytes}
    (hunread : w.unread = p.bytes ++ rest) :
    ∃ s' w', WebSocket.read d (s, w) = (.ok p.message, (s', w')) ∧ w'.unread = rest ∧
      (p.message.kind ≠ .close → Ready s' w') := by
  obtain ⟨⟨hlive, hwriting⟩, -⟩ := htime
  obtain ⟨w₁, hframe, hunread₁, h₁, -⟩ := h.readFrame
    (.inr (Deadline.not_expired_of_passes (passes_read h.isOpen w) hlive))
    p.message.kind.opcode_lt hlength (p.bytes_piece ▸ hunread)
  rw [read_eq, h.isOpen, if_neg Bool.false_ne_true, readLoop_succ, hframe] at hwriting ⊢
  simp only [heard_piece] at hwriting ⊢
  by_cases hcontrol : p.message.kind.isControl
  · simp only [hcontrol, if_true] at hwriting ⊢
    have hpermits : s.writeDeadline.Permits w₁
        (WebSocket.answer p.message.kind p.message.data (s, w₁)).2.2 := by
      refine .inr ?_
      rcases hans : WebSocket.answer p.message.kind p.message.data (s, w₁) with ⟨e | u, σ⟩
      all_goals
        rw [hans] at hwriting
        exact hwriting
    obtain ⟨s', w', hanswer, hunread', -, hready⟩ := h₁.answer _ _ hpermits
    rw [hanswer]
    refine ⟨s', w', rfl, hunread'.trans hunread₁, fun hne => ?_⟩
    obtain ⟨rfl, hready'⟩ := hready hne
    exact hready'
  · simp only [hcontrol, Bool.false_eq_true, if_false]
    exact ⟨s, w₁, rfl, hunread₁, fun _ => h₁⟩

/-- The socket and the wire behind successive reads, each with its own deadline. -/
def behind (ds : List Deadline) (σ : WebSocket × Wire) : WebSocket × Wire :=
  ds.foldl (fun σ d => (read d σ).2) σ

/-- **Reading undoes encoding.**  Messages of any kind, each masked or not, with a close at most in
the last place, arrive in whatever chunks on a wire that works.  Successive reads return exactly
these messages, and leave exactly what stands behind them. -/
theorem outcomes_encoded (parcels : List Parcel)
    (hlength : ∀ p ∈ parcels, p.message.data.length ≤ maxMessage)
    (hclose : ∀ p ∈ parcels.dropLast, p.message.kind ≠ .close) {s : WebSocket} {w : Wire}
    (h : Ready s w) {ds : List Deadline} (htime : InTime ds (s, w))
    (hcount : ds.length = parcels.length) (rest : Bytes)
    (hunread : w.unread = parcels.flatMap Parcel.bytes ++ rest) :
    outcomes ds (s, w) = parcels.map (fun p => .ok p.message) ∧
      (behind ds (s, w)).2.unread = rest := by
  induction parcels generalizing s w ds with
  | nil =>
    obtain rfl := List.length_eq_zero_iff.1 hcount
    exact ⟨rfl, hunread⟩
  | cons p parcels ih =>
    obtain ⟨d, ds, rfl⟩ := List.exists_cons_of_length_eq_add_one hcount
    obtain ⟨hnow, hlater⟩ := htime
    rw [List.flatMap_cons, List.append_assoc] at hunread
    obtain ⟨s', w', hread, hunread', hready⟩ :=
      h.read ⟨hnow, trivial⟩ (hlength p List.mem_cons_self) hunread
    rw [hread] at hlater
    rw [outcomes, behind, List.foldl_cons, hread, List.map_cons]
    cases parcels with
    | nil =>
      obtain rfl : ds = [] := List.length_eq_zero_iff.1 (Nat.succ.inj hcount)
      exact ⟨rfl, hunread'⟩
    | cons q parcels =>
      -- the message is not the last one, so it is no close and the socket stays open
      rw [List.dropLast_cons_of_ne_nil (List.cons_ne_nil q parcels)] at hclose
      obtain ⟨hout, hrest⟩ := ih (fun q hq => hlength q (List.mem_cons_of_mem _ hq))
        (fun q hq => hclose q (List.mem_cons_of_mem _ hq)) (hready (hclose p List.mem_cons_self))
        hlater (Nat.succ.inj hcount) hunread'
      exact ⟨congrArg _ hout, hrest⟩

/-- A masked text, a ping and a close, cut within the mask of the text and within the trailing
bytes, of which the last comes after the deadline of the last read. -/
theorem outcomes_encoded_farewell :
    let parcels : List Parcel := [⟨⟨.text, [104, 105]⟩, some (1, 2, 3, 4)⟩, ⟨⟨.ping, [7]⟩, none⟩,
      ⟨⟨.close, [3, 232]⟩, some (0, 0, 255, 1)⟩]
    let w : Wire := { transport := { incoming := [.bytes 0 [129, 130, 1], .bytes 20
      [2, 3, 4, 105, 107, 137, 1, 7, 136, 130, 0, 0, 255, 1, 3, 232, 9], .bytes 30 [8]] } }
    let ds := [Deadline.never, .never, .atInstant 21]
    (∀ p ∈ parcels, p.message.data.length ≤ maxMessage) ∧
      (∀ p ∈ parcels.dropLast, p.message.kind ≠ .close) ∧
      InTime ds ({ writeDeadline := .never }, w) ∧
      outcomes ds ({ writeDeadline := .never }, w) =
        [.ok ⟨.text, [104, 105]⟩, .ok ⟨.ping, [7]⟩, .ok ⟨.close, [3, 232]⟩] ∧
      (behind ds ({ writeDeadline := .never }, w)).2.unread = [9, 8] := by
  intro parcels w ds
  have hlength : ∀ p ∈ parcels, p.message.data.length ≤ maxMessage := by decide
  have hclose : ∀ p ∈ parcels.dropLast, p.message.kind ≠ .close := by decide
  have hready : Ready { writeDeadline := .never } w := by
    refine ⟨rfl, fun a ha => ?_, ⟨fun a ha => absurd ha List.not_mem_nil, rfl⟩⟩
    simp only [w, List.mem_cons, List.not_mem_nil, or_false] at ha
    rcases ha with rfl | rfl | rfl <;> trivial
  have htime : InTime ds ({ writeDeadline := .never }, w) :=
    ⟨⟨rfl, rfl⟩, ⟨rfl, by decide +kernel⟩, ⟨by decide +kernel, by decide +kernel⟩, trivial⟩
  obtain ⟨hout, hrest⟩ := outcomes_encoded parcels hlength hclose hready htime rfl [9, 8]
    (by decide)
  exact ⟨hlength, hclose, htime, hout, hrest⟩

end ScriptHost.WebSocket
