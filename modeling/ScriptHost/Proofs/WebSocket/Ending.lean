import ScriptHost.Proofs.WebSocket.RoundTrip

/-!
# How a read ends

The peer decides how long its frames are and how many fragments it sends.  This file is about what a
read does with any bytes at all, in whatever chunks they arrive, if the stream ends behind them.

* `Ends` — what a read comes to and what it leaves, as a fact about the bytes: a message that is not
  too long, or the reason for which there is none.
* `Ends.unique` — the bytes determine it.
* `readLoop_fuel` — every frame takes bytes off the stream, so the rounds of a read are bounded by
  their number, and a larger bound makes no difference.
* `concludes_behind` — what each of successive reads does.
-/

set_option autoImplicit false

namespace ScriptHost

namespace Wire

/-- Nothing breaks the stream, which has an end, and all that is written is taken. -/
structure Complete (w : Wire) : Prop where
  calm : w.Calm
  ended : w.transport.ended = true
  taking : w.Taking

theorem Complete.of_took {w w' : Wire} {c : Bytes} (h : w.Complete) (ht : w.Took c w') :
    w'.Complete :=
  ⟨ht.calm h.calm, ht.ended.trans h.ended, ht.taking h.taking⟩

/-- What is written in time is taken, and the stream stays as it is. -/
theorem Complete.send {w : Wire} (h : w.Complete) {d : Deadline} {operation : String} {data : Bytes}
    (hlive : d.isExpired (w.send d operation data).2.clock = false) :
    ∃ w', w.send d operation data = (.ok (), w') ∧ w'.unread = w.unread ∧ w'.Complete := by
  obtain ⟨w', hsend, hwrote⟩ := send_of_taking operation data h.taking (.inr hlive)
  have hothers := w.others_send d operation data
  rw [hsend] at hothers
  refine ⟨w', hsend, congrArg (List.flatMap Arrival.data) hwrote.incoming,
    fun a ha => h.calm a ?_, ?_,
    hwrote.taking⟩
  · rwa [hwrote.incoming] at ha
  · rw [hothers]
    exact h.ended

end Wire

namespace WebSocket

variable {bytes rest rest' : Bytes} {f : Frame} {fragments : Option Message}
  {r r' : Outcome Message} {m : Message} {e : Failure} {d : Deadline} {s : WebSocket} {w w' : Wire}

/-! ## Frames -/

namespace Frame

/-- What is read of a frame: its head, and then what the head calls for. -/
theorem exists_head_of_feed {r : Outcome Frame} (h : reader.feed bytes = some (r, rest)) :
    ∃ first second n behind, headReader.feed bytes = some (.ok (first, second, n), behind) ∧
      (bodyReader first second n).feed behind = some (r, rest) := by
  rw [reader, Reader.feed_bind] at h
  split at h
  · rename_i head behind hhead
    obtain ⟨first, second, n⟩ := head
    exact ⟨first, second, n, behind, hhead, h⟩
  · rename_i hhead
    obtain ⟨⟨head, hok⟩, -⟩ := feed_headReader_spec hhead
    cases hok
  · cases h

/-- A frame that is refused is too long, and what stands behind its head is left. -/
theorem feed_eq_error_iff : reader.feed bytes = some (.error e, rest) ↔
    ∃ first second n, headReader.feed bytes = some (.ok (first, second, n), rest) ∧
      maxMessage < n ∧ e = .exhausted ("websocket frame of " ++ toString n ++ " bytes") := by
  constructor
  · intro h
    obtain ⟨first, second, n, behind, hhead, hbody⟩ := exists_head_of_feed h
    obtain ⟨hlong, rfl, he⟩ | ⟨-, f, hok, -⟩ := feed_bodyReader_spec hbody
    · exact ⟨first, second, n, hhead, hlong, Except.error.inj he⟩
    · cases hok
  · rintro ⟨first, second, n, hhead, hlong, rfl⟩
    simp only [reader, Reader.feed_bind, hhead, bodyReader, if_pos hlong, Reader.feed_done]

theorem length_payload_le (h : reader.feed bytes = some (.ok f, rest)) :
    f.payload.length ≤ maxMessage := by
  obtain ⟨first, second, n, behind, -, hbody⟩ := exists_head_of_feed h
  obtain ⟨-, -, he⟩ | ⟨hshort, f', hok, hlength, -⟩ := feed_bodyReader_spec hbody
  · cases he
  · cases hok
    omega

end Frame

/-- A read that gets a frame has taken at least the two bytes of its head. -/
theorem length_of_readFrame (h : readFrame d w = (.ok f, w')) :
    w'.unread.length + 2 ≤ w.unread.length := by
  rw [readFrame_eq] at h
  cases Reader.run_spec h with
  | done ht hfeed =>
    have hlength := (Frame.feed_spec hfeed).1
    rw [ht.unread, List.length_append]
    rw [List.length_nil] at hlength
    omega

/-! ## Endings -/

theorem Kind.ofOpcode?_eq_none_iff {n : Nat} :
    Kind.ofOpcode? n = none ↔ ∀ kind : Kind, n ≠ kind.opcode := by
  rw [Kind.ofOpcode?, List.find?_eq_none]
  constructor
  · intro h kind hkind
    refine h kind ?_ (decide_eq_true hkind.symm)
    cases kind <;> decide
  · intro h kind _ hkind
    exact h kind (of_decide_eq_true hkind).symm

/-- What a read comes to that has the fragments of an unfinished message, or none, if these bytes
and then the end of the stream are before it; and the bytes that it leaves. -/
inductive Ends : Option Message → Bytes → Outcome Message → Bytes → Prop
  /-- The stream ends before there is a whole frame. -/
  | early {fragments : Option Message} {bytes : Bytes} : Frame.reader.feed bytes = none →
      Ends fragments bytes (.error (Io.early readOperation)) []
  /-- A frame is too long: its head is read, and neither its mask nor its payload. -/
  | oversized {fragments : Option Message} {bytes rest : Bytes} {first second n : Nat} :
      Frame.headReader.feed bytes = some (.ok (first, second, n), rest) → maxMessage < n →
      Ends fragments bytes
        (.error (.exhausted ("websocket frame of " ++ toString n ++ " bytes"))) rest
  /-- The fragments add up to too much. -/
  | overfull {bytes rest : Bytes} {f : Frame} {m : Message} :
      Frame.reader.feed bytes = some (.ok f, rest) → f.opcode = 0 →
      maxMessage < m.data.length + f.payload.length →
      Ends (some m) bytes (.error (.exhausted "websocket message too large")) rest
  | orphan {bytes rest : Bytes} {f : Frame} :
      Frame.reader.feed bytes = some (.ok f, rest) → f.opcode = 0 →
      Ends none bytes (.error (.illegalState "continuation frame without a message")) rest
  | unknown {fragments : Option Message} {bytes rest : Bytes} {f : Frame} :
      Frame.reader.feed bytes = some (.ok f, rest) → f.opcode ≠ 0 →
      (∀ kind : Kind, f.opcode ≠ kind.opcode) →
      Ends fragments bytes
        (.error (.illegalState ("unknown websocket opcode " ++ opcodeText f.opcode))) rest
  | message {fragments : Option Message} {bytes rest : Bytes} {f : Frame} {m : Message} :
      Frame.reader.feed bytes = some (.ok f, rest) → f.heard fragments = .ok (.message m) →
      Ends fragments bytes (.ok m) rest
  | control {fragments : Option Message} {bytes rest : Bytes} {f : Frame} {m : Message} :
      Frame.reader.feed bytes = some (.ok f, rest) → f.heard fragments = .ok (.control m) →
      Ends fragments bytes (.ok m) rest
  /-- Fragments only, so that it goes on. -/
  | more {fragments : Option Message} {bytes rest rest' : Bytes} {f : Frame} {m : Message}
      {r : Outcome Message} :
      Frame.reader.feed bytes = some (.ok f, rest) → f.heard fragments = .ok (.fragments m) →
      Ends (some m) rest r rest' → Ends fragments bytes r rest'

theorem heard_of_unknown (hopcode : f.opcode ≠ 0) (hkind : ∀ kind : Kind, f.opcode ≠ kind.opcode) :
    f.heard fragments =
      .error (.illegalState ("unknown websocket opcode " ++ opcodeText f.opcode)) := by
  rw [Frame.heard.eq_def, if_neg hopcode, Kind.ofOpcode?_eq_none_iff.2 hkind]

theorem heard_of_overfull (hopcode : f.opcode = 0)
    (hlong : maxMessage < m.data.length + f.payload.length) :
    f.heard (some m) = .error (.exhausted "websocket message too large") := by
  rw [Frame.heard, if_pos hopcode]
  exact if_pos (by rwa [List.length_append])

theorem heard_orphan (hopcode : f.opcode = 0) :
    f.heard none = .error (.illegalState "continuation frame without a message") := by
  rw [Frame.heard, if_pos hopcode]

/-- A frame that is refused is refused for one of these reasons. -/
theorem Ends.of_refused (hfeed : Frame.reader.feed bytes = some (.ok f, rest))
    (hheard : f.heard fragments = .error e) : Ends fragments bytes (.error e) rest := by
  by_cases hopcode : f.opcode = 0
  · cases fragments with
    | none =>
      rw [heard_orphan hopcode] at hheard
      cases hheard
      exact .orphan hfeed hopcode
    | some m =>
      by_cases hlong : maxMessage < m.data.length + f.payload.length
      · rw [heard_of_overfull hopcode hlong] at hheard
        cases hheard
        exact .overfull hfeed hopcode hlong
      · rw [Frame.heard, if_pos hopcode] at hheard
        simp only [List.length_append, if_neg hlong] at hheard
        cases hheard
  · by_cases hkind : ∀ kind : Kind, f.opcode ≠ kind.opcode
    · rw [heard_of_unknown hopcode hkind] at hheard
      cases hheard
      exact .unknown hfeed hopcode hkind
    · rw [← Kind.ofOpcode?_eq_none_iff] at hkind
      obtain ⟨kind, hkind⟩ := Option.ne_none_iff_exists'.1 hkind
      rw [Frame.heard.eq_def, if_neg hopcode, hkind] at hheard
      cases hheard

/-- The first frame decides, or leaves it to the others. -/
theorem ends_iff : Ends fragments bytes r rest ↔
    match Frame.reader.conclude readOperation bytes with
    | (.error e, rest') => r = .error e ∧ rest = rest'
    | (.ok f, rest') =>
      match f.heard fragments with
      | .error e => r = .error e ∧ rest = rest'
      | .ok (.message m) => r = .ok m ∧ rest = rest'
      | .ok (.control m) => r = .ok m ∧ rest = rest'
      | .ok (.fragments m) => Ends (some m) rest' r rest := by
  rw [Reader.conclude]
  constructor
  · intro h
    cases h with
    | early hfeed => simp [hfeed]
    | oversized hhead hlong =>
      rw [Frame.feed_eq_error_iff.2 ⟨_, _, _, hhead, hlong, rfl⟩]
      exact ⟨rfl, rfl⟩
    | overfull hfeed hopcode hlong => simp [hfeed, heard_of_overfull hopcode hlong]
    | orphan hfeed hopcode => simp [hfeed, heard_orphan hopcode]
    | unknown hfeed hopcode hkind => simp [hfeed, heard_of_unknown hopcode hkind]
    | message hfeed hheard => simp [hfeed, hheard]
    | control hfeed hheard => simp [hfeed, hheard]
    | more hfeed hheard hends => simpa [hfeed, hheard] using hends
  · intro h
    rcases hfeed : Frame.reader.feed bytes with _ | ⟨e | f, rest'⟩
    · rw [hfeed] at h
      obtain ⟨rfl, rfl⟩ := h
      exact .early hfeed
    · rw [hfeed] at h
      obtain ⟨rfl, rfl⟩ := h
      obtain ⟨first, second, n, hhead, hlong, rfl⟩ := Frame.feed_eq_error_iff.1 hfeed
      exact .oversized hhead hlong
    · simp only [hfeed, Option.getD_some] at h
      rcases hheard : f.heard fragments with e | ⟨m | m | m⟩
      · rw [hheard] at h
        obtain ⟨rfl, rfl⟩ := h
        exact .of_refused hfeed hheard
      · rw [hheard] at h
        obtain ⟨rfl, rfl⟩ := h
        exact .message hfeed hheard
      · rw [hheard] at h
        obtain ⟨rfl, rfl⟩ := h
        exact .control hfeed hheard
      · rw [hheard] at h
        exact .more hfeed hheard h

/-- **The bytes determine** what a read comes to, and what it leaves. -/
theorem Ends.unique (h : Ends fragments bytes r rest) (h' : Ends fragments bytes r' rest') :
    r = r' ∧ rest = rest' := by
  induction hlength : bytes.length using Nat.strong_induction_on generalizing fragments bytes with
  | _ n ih =>
    rw [ends_iff] at h h'
    rcases hnext : Frame.reader.conclude readOperation bytes with ⟨e | f, left⟩
    · rw [hnext] at h h'
      exact ⟨h.1.trans h'.1.symm, h.2.trans h'.2.symm⟩
    · simp only [hnext] at h h'
      rcases hheard : f.heard fragments with e | ⟨m | m | m⟩
      · simp only [hheard] at h h'
        exact ⟨h.1.trans h'.1.symm, h.2.trans h'.2.symm⟩
      · simp only [hheard] at h h'
        exact ⟨h.1.trans h'.1.symm, h.2.trans h'.2.symm⟩
      · simp only [hheard] at h h'
        exact ⟨h.1.trans h'.1.symm, h.2.trans h'.2.symm⟩
      · simp only [hheard] at h h'
        have hshorter := (Frame.feed_spec (Reader.conclude_eq_ok_iff.1 hnext)).1
        exact ih left.length (by omega) h h' rfl

/-- The message that a read has of a frame: the whole of it, or what there is so far. -/
def Heard.content : Heard → Message
  | .message m | .control m | .fragments m => m

theorem length_heard {heard : Heard} (h : f.heard fragments = .ok heard)
    (hlength : f.payload.length ≤ maxMessage) : heard.content.data.length ≤ maxMessage := by
  by_cases hopcode : f.opcode = 0
  · cases fragments with
    | none =>
      rw [heard_orphan hopcode] at h
      cases h
    | some m =>
      by_cases hlong : maxMessage < m.data.length + f.payload.length
      · rw [heard_of_overfull hopcode hlong] at h
        cases h
      · rw [Frame.heard, if_pos hopcode] at h
        simp only [List.length_append, if_neg hlong, Except.ok.injEq] at h
        rw [← h]
        cases f.final <;> simpa [Heard.content] using hlong
  · rw [Frame.heard.eq_def, if_neg hopcode] at h
    cases hkind : Kind.ofOpcode? f.opcode with
    | none =>
      rw [hkind] at h
      cases h
    | some kind =>
      simp only [hkind, Except.ok.injEq] at h
      rw [← h]
      cases kind.isControl <;> cases f.final <;> simpa [Heard.content] using hlength

/-- A message that is returned is not too long, however many fragments it has come in. -/
theorem Ends.length_le (h : Ends fragments bytes (.ok m) rest) : m.data.length ≤ maxMessage := by
  generalize hr : Except.ok m = r at h
  induction h with
  | early | oversized | overfull | orphan | unknown => cases hr
  | message hfeed hheard | control hfeed hheard =>
    cases hr
    exact length_heard hheard (Frame.length_payload_le hfeed)
  | more _ _ _ ih => exact ih hr

/-! ## Rounds -/

/-- **The number of rounds is bounded by the number of bytes**, and a larger bound makes no
difference. -/
theorem readLoop_fuel {n k : Nat} (hn : w.unread.length < n) (hk : w.unread.length < k) :
    readLoop d n fragments (s, w) = readLoop d k fragments (s, w) := by
  induction n generalizing k fragments w with
  | zero => exact absurd hn (Nat.not_lt_zero _)
  | succ n ih =>
    obtain ⟨k, rfl⟩ : ∃ j, k = j + 1 := ⟨k - 1, by omega⟩
    rw [readLoop_succ, readLoop_succ]
    rcases hframe : readFrame d w with ⟨e | f, w₁⟩
    · rfl
    · have hlength := length_of_readFrame hframe
      simp only
      rcases f.heard fragments with e | ⟨m | m | m⟩
      · rfl
      · rfl
      · rfl
      · exact ih (by omega) (by omega)

/-- A control frame is answered if there is time to write the answer, and the stream stays as it
is. -/
theorem answer_of_complete {kind : Kind} {data : Bytes} (h : w.Complete)
    (hs : s.writeDeadline.isExpired (answer kind data (s, w)).2.2.clock = false) :
    ∃ s' w', answer kind data (s, w) = (.ok (), (s', w')) ∧
      s'.closeReceived = (s.closeReceived || kind = .close) ∧ w'.unread = w.unread ∧
      w'.Complete := by
  have written (kind' : Kind) (s' : WebSocket)
      (hs : s'.writeDeadline.isExpired (write kind' data (s', w)).2.2.clock = false) :
      ∃ w', write kind' data (s', w) = (.ok (), (s', w')) ∧ w'.unread = w.unread ∧ w'.Complete := by
    obtain ⟨w', hsend, hw'⟩ := h.send hs
    exact ⟨w', by rw [write_eq, hsend], hw'⟩
  cases kind with
  | text | binary | pong => exact ⟨s, w, rfl, by simp, rfl, h⟩
  | ping =>
    obtain ⟨w', hwrite, hw'⟩ := written .pong s hs
    exact ⟨s, w', hwrite, by simp, hw'⟩
  | close =>
    rw [answer_close] at hs ⊢
    split at hs
    · rename_i hsent
      rw [if_pos hsent]
      exact ⟨_, w, rfl, by simp, rfl, h⟩
    · rename_i hsent
      rw [if_neg hsent]
      obtain ⟨w', hwrite, hw'⟩ := written .close
        { s with closeReceived := true, closeSent := true } hs
      exact ⟨_, w', hwrite, by simp, hw'⟩

/-- What a read comes to, from the fragments that it has so far. -/
theorem readLoop_ends {n : Nat} (hfuel : w.unread.length < n) (hplain : Plain fragments)
    (hopen : s.closeReceived = false) (h : w.Complete)
    (hd : d.isExpired (readLoop d n fragments (s, w)).2.2.clock = false)
    (hs : s.writeDeadline.isExpired (readLoop d n fragments (s, w)).2.2.clock = false) :
    Ends fragments w.unread (readLoop d n fragments (s, w)).1
        (readLoop d n fragments (s, w)).2.2.unread ∧
      (readLoop d n fragments (s, w)).2.2.Complete ∧
      ((readLoop d n fragments (s, w)).2.1.closeReceived = true ↔
        ∃ data, (readLoop d n fragments (s, w)).1 = .ok ⟨.close, data⟩) := by
  induction n generalizing fragments w with
  | zero => exact absurd hfuel (Nat.not_lt_zero _)
  | succ n ih =>
    -- a deadline that has not passed at the end has not passed on the way
    have hpasses := passes_round (fun fragments w => passes_readLoop d n fragments s w) fragments w
    have hlive := Deadline.not_expired_of_passes hpasses hd
    have htook := Frame.reader.took_run d readOperation w
    rw [← readFrame_eq] at htook
    rcases hframe : readFrame d w with ⟨r₁, w₁⟩
    rw [hframe] at hlive htook
    obtain ⟨c, htook⟩ := htook
    have hnext := Reader.run_of_ended (readFrame_eq d ▸ hframe) h.calm h.ended hlive
    rw [ends_iff, hnext]
    rw [readLoop_succ, hframe] at hd hs ⊢
    rcases r₁ with e | f
    · refine ⟨⟨rfl, rfl⟩, h.of_took htook, ?_⟩
      simp [hopen]
    · have hlength := length_of_readFrame hframe
      simp only at hd hs ⊢
      rcases hheard : f.heard fragments with e | ⟨m | m | m⟩
      · refine ⟨⟨rfl, rfl⟩, h.of_took htook, ?_⟩
        simp [hopen]
      · have hkind := plain_message hplain hheard
        refine ⟨⟨rfl, rfl⟩, h.of_took htook, iff_of_false (by simp [hopen]) ?_⟩
        rintro ⟨data, hclose⟩
        cases hclose
        cases hkind
      · rw [hheard] at hs
        simp only at hs ⊢
        have hlive : s.writeDeadline.isExpired
          (answer m.kind m.data (s, w₁)).2.2.clock = false := by
          rcases hans : answer m.kind m.data (s, w₁) with ⟨e | u, σ⟩
          all_goals
            rw [hans] at hs
            exact hs
        obtain ⟨s', w', hans, hclosed, hunread, hcomplete⟩ :=
          answer_of_complete (h.of_took htook) hlive
        rw [hans]
        refine ⟨⟨rfl, hunread⟩, hcomplete, ?_⟩
        obtain ⟨kind, data⟩ := m
        simp [hclosed, hopen]
      · rw [hheard] at hd hs
        exact ih (by omega) (plain_fragments hplain hheard) (h.of_took htook) hd hs

/-! ## Reads -/

/-- What a read does where nothing breaks the stream, which has an end, and no deadline passes. -/
structure Concludes (d : Deadline) (σ : WebSocket × Wire) : Prop where
  /-- Behind a close it is refused, and does nothing. -/
  refused : σ.1.closeReceived = true →
    read d σ = (.error (.illegalState "websocket is closed"), σ)
  /-- Otherwise it ends, as the bytes say and in no other way. -/
  ends (r : Outcome Message) (rest : Bytes) : σ.1.closeReceived = false →
    (Ends none σ.2.unread r rest ↔ (read d σ).1 = r ∧ (read d σ).2.2.unread = rest)
  /-- The bound on its rounds is not what ends it. -/
  rounds (n : Nat) : σ.1.closeReceived = false → σ.2.unread.length < n →
    readLoop d n none σ = read d σ
  /-- What it returns is not too long. -/
  bounded (m : Message) : (read d σ).1 = .ok m → m.data.length ≤ maxMessage
  /-- A close is behind it if it has found one, or one has been found before. -/
  closes : (read d σ).2.1.closeReceived = true ↔
    σ.1.closeReceived = true ∨ ∃ data, (read d σ).1 = .ok ⟨.close, data⟩

theorem read_concludes {σ : WebSocket × Wire} (h : σ.2.Complete)
    (hd : d.isExpired (read d σ).2.2.clock = false)
    (hs : σ.1.writeDeadline.isExpired (read d σ).2.2.clock = false) :
    Concludes d σ ∧ (read d σ).2.2.Complete := by
  obtain ⟨s, w⟩ := σ
  by_cases hopen : s.closeReceived = true
  · have hread : read d (s, w) = (.error (.illegalState "websocket is closed"), (s, w)) := by
      rw [read_eq, if_pos hopen]
    refine ⟨⟨fun _ => hread, fun r rest hclosed => ?_, fun n hclosed => ?_, fun m hm => ?_, ?_⟩, ?_⟩
    · simp [hopen] at hclosed
    · simp [hopen] at hclosed
    · simp [hread] at hm
    · simp [hread, hopen]
    · simpa [hread] using h
  · have hread := read_eq d s w
    rw [if_neg hopen] at hread
    rw [hread] at hd hs
    have hopen := Bool.eq_false_iff.2 hopen
    obtain ⟨hends, hcomplete, hcloses⟩ := readLoop_ends (Nat.lt_succ_self _)
      (fun _ hm => by cases hm) hopen h hd hs
    rw [← hread] at hends hcomplete hcloses
    refine ⟨⟨fun hclosed => ?_, fun r rest _ => ⟨fun h' => ?_, ?_⟩, fun n _ hn => ?_,
      fun m hm => ?_,
      ?_⟩, hcomplete⟩
    · simp [hopen] at hclosed
    · exact hends.unique h'
    · rintro ⟨rfl, rfl⟩
      exact hends
    · rw [hread]
      exact readLoop_fuel hn (Nat.lt_succ_self _)
    · rw [hm] at hends
      exact hends.length_le
    · simp [hcloses, hopen]

/-- **How reads end.**  Whatever bytes arrive and in whatever chunks, if the stream ends behind
them, all that is written is taken and no deadline passes before its read is over, then every one of
successive reads concludes. -/
theorem concludes_behind (ds : List Deadline) (h : w.Complete) (htime : InTime (ds ++ [d]) (s, w)) :
    Concludes d (behind ds (s, w)) := by
  induction ds generalizing s w with
  | nil =>
    obtain ⟨⟨hd, hs⟩, -⟩ := htime
    exact (read_concludes h hd hs).1
  | cons d' ds ih =>
    obtain ⟨⟨hd, hs⟩, hlater⟩ := htime
    exact ih (read_concludes h hd hs).2 hlater

/-- A text in three fragments, one of them empty, and a binary frame that is one byte too long: its
mask is left. -/
theorem concludes_behind_oversized :
    let w : Wire := { transport := { incoming := [.bytes 0 [1, 1, 104], .bytes 5
      [0, 0, 128, 1, 105, 130],
      .bytes 9 [255, 0, 0, 0, 0, 1, 0, 0, 1, 7, 7, 7, 7]], ended := true } }
    let σ : WebSocket × Wire := ({ writeDeadline := .never }, w)
    w.Complete ∧ InTime [.never, .never] σ ∧
      (read .never σ).1 = .ok ⟨.text, [104, 105]⟩ ∧
      (read .never (behind [.never] σ)).1 =
        .error (.exhausted "websocket frame of 16777217 bytes") ∧
      (read .never (behind [.never] σ)).2.2.unread = [7, 7, 7, 7] := by
  intro w σ
  have hcomplete : w.Complete := by
    refine ⟨fun a ha => ?_, rfl, ⟨fun a ha => absurd ha List.not_mem_nil, rfl⟩⟩
    simp only [w, List.mem_cons, List.not_mem_nil, or_false] at ha
    rcases ha with rfl | rfl | rfl <;> trivial
  have htime : InTime [.never, .never] σ := ⟨⟨rfl, rfl⟩, ⟨rfl, rfl⟩, trivial⟩
  have hfirst : Concludes .never σ := concludes_behind [] hcomplete ⟨htime.1, trivial⟩
  have hsecond : Concludes .never (behind [.never] σ) := concludes_behind [.never] hcomplete htime
  have hh : Frame.reader.feed w.unread = some (.ok ⟨false, 1, [104]⟩,
      [0, 0, 128, 1, 105, 130, 255, 0, 0, 0, 0, 1, 0, 0, 1, 7, 7, 7, 7]) := rfl
  have hempty : Frame.reader.feed
    [0, 0, 128, 1, 105, 130, 255, 0, 0, 0, 0, 1, 0, 0, 1, 7, 7, 7, 7] =
      some (.ok ⟨false, 0, []⟩, [128, 1, 105, 130, 255, 0, 0, 0, 0, 1, 0, 0, 1, 7, 7, 7, 7]) := rfl
  have hi : Frame.reader.feed [128, 1, 105, 130, 255, 0, 0, 0, 0, 1, 0, 0, 1, 7, 7, 7, 7] =
      some (.ok ⟨true, 0, [105]⟩, [130, 255, 0, 0, 0, 0, 1, 0, 0, 1, 7, 7, 7, 7]) := rfl
  have htext : Ends none w.unread (.ok ⟨.text, [104, 105]⟩)
      [130, 255, 0, 0, 0, 0, 1, 0, 0, 1, 7, 7, 7, 7] :=
    .more hh rfl (.more hempty rfl (.message hi rfl))
  obtain ⟨hread, hrest⟩ := (hfirst.ends _ _ rfl).1 htext
  have hopen : (behind [.never] σ).1.closeReceived = false := by
    rw [Bool.eq_false_iff]
    intro hclosed
    obtain hbefore | ⟨data, hclose⟩ := hfirst.closes.1 hclosed
    · cases hbefore
    · simp [hread] at hclose
  have hunread : (behind [.never] σ).2.unread =
      [130, 255, 0, 0, 0, 0, 1, 0, 0, 1, 7, 7, 7, 7] := hrest
  have hlong : Ends none (behind [.never] σ).2.unread
      (.error (.exhausted "websocket frame of 16777217 bytes")) [7, 7, 7, 7] := by
    rw [hunread]
    exact .oversized (n := 16777217) rfl (by decide)
  obtain ⟨hrefused, hleft⟩ := (hsecond.ends _ _ hopen).1 hlong
  exact ⟨hcomplete, htime, hread, hrefused, hleft⟩

end WebSocket

end ScriptHost
