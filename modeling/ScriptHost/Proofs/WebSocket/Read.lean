import ScriptHost.WebSocket.Basic
import ScriptHost.Proofs.Stream.Writing
import ScriptHost.Proofs.WebSocket.Frame

/-!
# One read

A read goes from frame to frame until one of them completes a message or is a control frame.  What a
frame means to it depends only on the frame and on the fragments that it has so far (`Frame.heard`);
the wire comes in when a control frame has to be answered.

* `readLoop_succ` — one round of the loop.
* `outcomes` — what successive reads return.
-/

set_option autoImplicit false

namespace ScriptHost.WebSocket

/-- What a frame means to a read. -/
inductive Heard where
  | message (m : Message)
  | control (m : Message)
  | fragments (m : Message)

/-- What a frame means to a read that has the fragments of an unfinished message, or none. -/
def Frame.heard (frame : Frame) (fragments : Option Message) : Outcome Heard :=
  if frame.opcode = 0 then
    match fragments with
    | none => .error (.illegalState "continuation frame without a message")
    | some m =>
      let m : Message := { m with data := m.data ++ frame.payload }
      if maxMessage < m.data.length then .error (.exhausted "websocket message too large")
      else .ok (if frame.final then .message m else .fragments m)
  else
    match Kind.ofOpcode? frame.opcode with
    | none => .error (.illegalState ("unknown websocket opcode " ++ opcodeText frame.opcode))
    | some kind =>
      let m : Message := ⟨kind, frame.payload⟩
      .ok (if kind.isControl then .control m else if frame.final then .message m else .fragments m)

/-- All that a frame can mean: a failure that is no timeout, the next piece of a message or its last
one, a message of its own or the first piece of one, or a control frame. -/
inductive Hears (f : Frame) : Option Message → Outcome Heard → Prop
  | refused {fragments : Option Message} {e : Failure} : (∀ operation, e ≠ .timeout operation) →
      Hears f fragments (.error e)
  | completes {m : Message} : f.opcode = 0 → f.final = true →
      Hears f (some m) (.ok (.message { m with data := m.data ++ f.payload }))
  | continues {m : Message} : f.opcode = 0 → f.final = false →
      Hears f (some m) (.ok (.fragments { m with data := m.data ++ f.payload }))
  | whole {fragments : Option Message} {kind : Kind} : f.opcode = kind.opcode →
      kind.isControl = false → f.final = true → Hears f fragments (.ok (.message ⟨kind, f.payload⟩))
  | begins {fragments : Option Message} {kind : Kind} : f.opcode = kind.opcode →
      kind.isControl = false → f.final = false →
      Hears f fragments (.ok (.fragments ⟨kind, f.payload⟩))
  | control {fragments : Option Message} {kind : Kind} : f.opcode = kind.opcode →
      kind.isControl = true → Hears f fragments (.ok (.control ⟨kind, f.payload⟩))

theorem heard_spec (f : Frame) (fragments : Option Message) :
    Hears f fragments (f.heard fragments) := by
  rw [Frame.heard.eq_def]
  by_cases h₀ : f.opcode = 0
  · simp only [h₀, if_true]
    cases fragments with
    | none => exact .refused fun _ h => by cases h
    | some m =>
      simp only
      split
      · exact .refused fun _ h => by cases h
      · cases hf : f.final
        · exact .continues h₀ hf
        · exact .completes h₀ hf
  · simp only [h₀, if_false]
    rcases hk : Kind.ofOpcode? f.opcode with _ | kind
    · exact .refused fun _ h => by cases h
    · have hkind : kind.opcode = f.opcode := by simpa using List.find?_some hk
      simp only
      cases hc : kind.isControl
      · cases hf : f.final
        · exact .begins hkind.symm hc hf
        · exact .whole hkind.symm hc hf
      · exact .control hkind.symm hc

namespace Call

theorem bind_apply {α β : Type} (x : Call α) (f : α → Call β) (σ : WebSocket × Wire) :
    (x >>= f) σ =
      match x σ with
      | (.ok a, σ') => f a σ'
      | (.error e, σ') => (.error e, σ') := by
  show ExceptT.bindCont f (x σ).1 (x σ).2 = _
  rcases x σ with ⟨e | a, σ'⟩ <;> rfl

end Call

theorem absorb_eq (frame : Frame) (fragments : Option Message) (σ : WebSocket × Wire) :
    absorb frame fragments σ =
      match frame.heard fragments with
      | .error e => (.error e, σ)
      | .ok (.message m) => (.ok (.inl m), σ)
      | .ok (.fragments m) => (.ok (.inr (some m)), σ)
      | .ok (.control m) =>
        match answer m.kind m.data σ with
        | (.ok (), σ') => (.ok (.inl m), σ')
        | (.error e, σ') => (.error e, σ') := by
  rw [absorb.eq_def, Frame.heard.eq_def]
  by_cases h₀ : frame.opcode = 0
  · simp only [h₀, if_true]
    cases fragments with
    | none => rfl
    | some m =>
      simp only
      split
      · rfl
      · cases frame.final <;> rfl
  · simp only [h₀, if_false]
    rcases Kind.ofOpcode? frame.opcode with _ | kind
    · rfl
    · by_cases hc : kind.isControl = true
      · simp only [hc, if_true]
        rw [Call.bind_apply]
        rcases answer kind frame.payload σ with ⟨e | u, σ'⟩ <;> rfl
      · simp only [hc, Bool.false_eq_true, if_false]
        cases frame.final <;> rfl

/-- One round of the loop of a read. -/
theorem readLoop_succ (d : Deadline) (fuel : Nat) (fragments : Option Message) (s : WebSocket)
    (w : Wire) :
    readLoop d (fuel + 1) fragments (s, w) =
      match readFrame d w with
      | (.error e, w') => (.error e, (s, w'))
      | (.ok frame, w') =>
        match frame.heard fragments with
        | .error e => (.error e, (s, w'))
        | .ok (.message m) => (.ok m, (s, w'))
        | .ok (.fragments m) => readLoop d fuel (some m) (s, w')
        | .ok (.control m) =>
          match answer m.kind m.data (s, w') with
          | (.ok (), σ) => (.ok m, σ)
          | (.error e, σ) => (.error e, σ) := by
  have hio : liftIo (readFrame d) (s, w) = ((readFrame d w).1, (s, (readFrame d w).2)) := rfl
  rw [readLoop, Call.bind_apply, hio]
  rcases readFrame d w with ⟨e | frame, w'⟩
  · rfl
  · simp only
    rw [Call.bind_apply, absorb_eq]
    rcases frame.heard fragments with e | ⟨m | m | m⟩
    · rfl
    · rfl
    · simp only
      rcases answer m.kind m.data (s, w') with ⟨e | u, σ⟩ <;> rfl
    · rfl

theorem read_eq (d : Deadline) (s : WebSocket) (w : Wire) :
    read d (s, w) =
      if s.closeReceived then (.error (.illegalState "websocket is closed"), (s, w))
      else readLoop d (w.unread.length + 1) none (s, w) := by
  rw [Wire.unread, Transport.length_unread, read, Call.bind_apply]
  simp only [getSocket]
  split <;> rfl

/-! ## Hearing and answering -/

/-- Fragments belong to messages that are no control frames. -/
def Plain (fragments : Option Message) : Prop := ∀ m ∈ fragments, m.kind.isControl = false

theorem plain_fragments {f : Frame} {fragments : Option Message} (hplain : Plain fragments)
    {m : Message} (h : f.heard fragments = .ok (.fragments m)) : Plain (some m) := by
  have hears := heard_spec f fragments
  rw [h] at hears
  rintro m' ⟨⟩
  cases hears with
  | @continues m₀ => exact hplain m₀ rfl
  | begins _ hc => exact hc

theorem plain_message {f : Frame} {fragments : Option Message} (hplain : Plain fragments)
    {m : Message} (h : f.heard fragments = .ok (.message m)) : m.kind.isControl = false := by
  have hears := heard_spec f fragments
  rw [h] at hears
  cases hears with
  | @completes m₀ => exact hplain m₀ rfl
  | whole _ hc => exact hc

/-- Goes from frame to frame until one of them completes a message or is a control frame. -/
def hearLoop (d : Deadline) : Nat → Option Message → Io Message
  | 0, _ => throw (.timeout readOperation)
  | fuel + 1, fragments => do
    let frame ← readFrame d
    match frame.heard fragments with
    | .error e => throw e
    | .ok (.message m) | .ok (.control m) => return m
    | .ok (.fragments m) => hearLoop d fuel (some m)

/-- **A read hears a message and answers it**; there is an answer to control frames only. -/
theorem readLoop_eq (d : Deadline) (fuel : Nat) {fragments : Option Message}
    (hplain : Plain fragments) (s : WebSocket) (w : Wire) :
    readLoop d fuel fragments (s, w) =
      match hearLoop d fuel fragments w with
      | (.error e, w') => (.error e, (s, w'))
      | (.ok m, w') =>
        match answer m.kind m.data (s, w') with
        | (.ok (), σ) => (.ok m, σ)
        | (.error e, σ) => (.error e, σ) := by
  induction fuel generalizing fragments w with
  | zero => rfl
  | succ fuel ih =>
    rw [readLoop_succ, hearLoop, Io.bind_apply]
    rcases readFrame d w with ⟨e | frame, w'⟩
    · rfl
    · dsimp only
      rcases hheard : frame.heard fragments with e | ⟨m | m | m⟩
      · rfl
      · have hkind := plain_message hplain hheard
        have hanswer : answer m.kind m.data (s, w') = (.ok (), (s, w')) := by
          rcases m with ⟨kind, data⟩
          cases kind <;> first | rfl | cases hkind
        show _ = match answer m.kind m.data (s, w') with
          | (Except.ok (), σ) => (Except.ok m, σ)
          | (Except.error e, σ) => (Except.error e, σ)
        rw [hanswer]
      · rfl
      · exact ih (plain_fragments hplain hheard) w'

/-- Hearing takes bytes off the stream, and time passes. -/
theorem took_hearLoop (d : Deadline) (fuel : Nat) (fragments : Option Message) (w : Wire) :
    ∃ c, w.Took c (hearLoop d fuel fragments w).2 := by
  induction fuel generalizing fragments w with
  | zero => exact ⟨[], .refl w⟩
  | succ fuel ih =>
    have hframe := Frame.reader.took_run d readOperation w
    rw [← readFrame_eq] at hframe
    rw [hearLoop, Io.bind_apply]
    rcases hr : readFrame d w with ⟨e | frame, w'⟩ <;> rw [hr] at hframe
    · exact hframe
    · dsimp only
      rcases frame.heard fragments with e | ⟨m | m | m⟩
      · exact hframe
      · exact hframe
      · exact hframe
      · obtain ⟨c, hc⟩ := hframe
        obtain ⟨c', hc'⟩ := ih (some m) w'
        exact ⟨c ++ c', hc.trans hc'⟩

/-- What successive reads return, each with its own deadline. -/
def outcomes : List Deadline → WebSocket × Wire → List (Outcome Message)
  | [], _ => []
  | d :: ds, σ => (read d σ).1 :: outcomes ds (read d σ).2

@[simp] theorem length_outcomes (ds : List Deadline) (σ : WebSocket × Wire) :
    (outcomes ds σ).length = ds.length := by
  induction ds generalizing σ with
  | nil => rfl
  | cons d ds ih => rw [outcomes, List.length_cons, ih, List.length_cons]

/-! ## Answers -/

/-- What an answer can do: it leaves what is incoming as it is, and it fails only for what it has to
write, which is the answer to a ping or the echo of a close. -/
inductive Answers (kind : Kind) (s : WebSocket) (w : Wire) : Outcome Unit → WebSocket → Wire → Prop
  | ok {s' : WebSocket} {w' : Wire} : w'.transport.incoming = w.transport.incoming →
      Answers kind s w (.ok ()) s' w'
  | failed {e : Failure} {s' : WebSocket} {w' : Wire} :
      w'.transport.incoming = w.transport.incoming → (∀ message, e ≠ .illegalState message) →
      (kind = .ping ∧ s' = s ∨ kind = .close ∧ s'.closeReceived = true) →
      Answers kind s w (.error e) s' w'

theorem write_eq (kind : Kind) (data : Bytes) (s : WebSocket) (w : Wire) :
    write kind data (s, w) =
      ((w.send s.writeDeadline "write websocket frame" (encodeFrame kind data none)).1,
        (s, (w.send s.writeDeadline "write websocket frame" (encodeFrame kind data none)).2)) := rfl

/-- The first close is echoed, and both sides note it before that. -/
theorem answer_close (data : Bytes) (s : WebSocket) (w : Wire) : answer .close data (s, w) =
    (if s.closeSent then pure () else write .close data : Call Unit)
      ({ s with closeReceived := true, closeSent := true }, w) := rfl

theorem answer_spec {kind : Kind} {data : Bytes} {s s' : WebSocket} {w w' : Wire} {r : Outcome Unit}
    (h : answer kind data (s, w) = (r, (s', w'))) : Answers kind s w r s' w' := by
  have written (kind' : Kind) (s₁ : WebSocket) (hw : write kind' data (s₁, w) = (r, (s', w')))
      (hs : kind = .ping ∧ s₁ = s ∨ kind = .close ∧ s₁.closeReceived = true) :
      Answers kind s w r s' w' := by
    let frame := encodeFrame kind' data none
    have hin := w.incoming_send s₁.writeDeadline "write websocket frame" frame
    have hne := w.send_ne_illegalState s₁.writeDeadline "write websocket frame" frame
    have hwrite := write_eq kind' data s₁ w
    rcases hsend : w.send s₁.writeDeadline "write websocket frame" frame with ⟨e | u, w₁⟩
    · rw [hsend] at hin hne hwrite
      rw [hwrite] at hw
      cases hw
      exact .failed hin (fun message he => hne message (by rw [he])) hs
    · rw [hsend] at hin hwrite
      rw [hwrite] at hw
      cases hw
      exact .ok hin
  cases kind with
  | text | binary | pong =>
    cases h
    exact .ok rfl
  | ping => exact written .pong s h (.inl ⟨rfl, rfl⟩)
  | close =>
    rw [answer_close] at h
    split at h
    · cases h
      exact .ok rfl
    · exact written .close _ h (.inr ⟨rfl, rfl⟩)

end ScriptHost.WebSocket
