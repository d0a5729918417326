import ScriptHost.Proofs.WebSocket.RoundTrip

/-!
# Where payloads go

Reads take frames off the stream and return messages.  The payload of a data frame or of a
continuation belongs to a message that is returned in the end, or to one that frames have begun and
not yet completed, or it is lost: a text or a binary that arrives while a message is unfinished
takes the place of that message, and the read that hears it returns no error.

* `Framed` — the frames that bytes are made of.
* `payloads_eq` — the payloads are those of all attempts at a message, completed or given up, and
  behind them what is unfinished.
* `outcomes_returned` — reads that succeed return the attempts that are completed.
* `payloads_conserved_iff` — no payload is lost if and only if no data frame arrives while a message
  with some payload is unfinished.
-/

set_option autoImplicit false

namespace ScriptHost.WebSocket

/-! ## Frames -/

/-- Bytes are made of frames. -/
inductive Framed : Bytes → List Frame → Prop
  | nil : Framed [] []
  | cons {bytes rest : Bytes} {f : Frame} {frames : List Frame} :
      Frame.reader.feed bytes = some (.ok f, rest) → Framed rest frames →
      Framed bytes (f :: frames)

namespace Framed

theorem append {bytes more : Bytes} {frames others : List Frame} (h : Framed bytes frames)
    (hmore : Framed more others) : Framed (bytes ++ more) (frames ++ others) := by
  induction h with
  | nil => exact hmore
  | cons hfeed _ ih => exact .cons (Reader.feed_append hfeed more) ih

theorem unique {bytes : Bytes} {frames others : List Frame} (h : Framed bytes frames)
    (h' : Framed bytes others) : others = frames := by
  -- a frame takes at least two bytes, so none is read from no bytes
  have hne {rest : Bytes} {r : Outcome Frame} : Frame.reader.feed [] ≠ some (r, rest) := by
    intro hfeed
    exact absurd (Frame.feed_spec hfeed).1 (Nat.not_succ_le_zero _)
  induction h generalizing others with
  | nil =>
    cases h' with
    | nil => rfl
    | cons hfeed _ => exact absurd hfeed hne
  | cons hfeed _ ih =>
    cases h' with
    | nil => exact absurd hfeed hne
    | cons hfeed' hrest =>
      rw [hfeed] at hfeed'
      cases hfeed'
      rw [ih hrest]

theorem iff_eq {bytes : Bytes} {frames : List Frame} (h : Framed bytes frames)
    (others : List Frame) : Framed bytes others ↔ others = frames :=
  ⟨h.unique, fun heq => heq ▸ h⟩

/-- Pieces are written as the bytes of their frames. -/
theorem stream {talk : List Piece}
    (h : ∀ p ∈ talk, p.frame.opcode < 16 ∧ p.frame.payload.length ≤ maxMessage) :
    Framed (WebSocket.stream talk) (talk.map Piece.frame) := by
  induction talk with
  | nil => exact .nil
  | cons p talk ih =>
    obtain ⟨⟨hopcode, hlength⟩, hrest⟩ := List.forall_mem_cons.1 h
    exact .cons (Frame.feed_writeFrame _ hopcode hlength p.mask _) (ih hrest)

end Framed

namespace Frame

/-- A text or a binary, which begins a message. -/
def isData (f : Frame) : Bool := f.opcode = Kind.text.opcode || f.opcode = Kind.binary.opcode

/-- Whether a frame continues a message. -/
def isContinuation (f : Frame) : Bool := f.opcode = 0

theorem isData_of_kind {f : Frame} {kind : Kind} (hkind : f.opcode = kind.opcode)
    (hcontrol : kind.isControl = false) : f.isData = true := by
  rw [isData, hkind]
  cases kind <;> first | rfl | cases hcontrol

theorem not_isData_of_continuation {f : Frame} (h : f.opcode = 0) : f.isData = false := by
  rw [isData, h]
  rfl

theorem not_isData_of_control {f : Frame} {kind : Kind} (hkind : f.opcode = kind.opcode)
    (hcontrol : kind.isControl = true) : f.isData = false ∧ f.isContinuation = false := by
  rw [isData, isContinuation, hkind]
  cases kind <;> first | exact ⟨rfl, rfl⟩ | cases hcontrol

/-- The payload of the message that is unfinished behind a frame. -/
def extend (unfinished : Bytes) (f : Frame) : Bytes :=
  if f.isData then if f.final then [] else f.payload
  else if f.isContinuation then if f.final then [] else unfinished ++ f.payload
  else unfinished

end Frame

/-- The payload of the message that frames leave unfinished, as far as it has come. -/
def unfinished (frames : List Frame) : Bytes := frames.foldl Frame.extend []

/-- The payloads of data frames and of continuations. -/
def payloads (frames : List Frame) : Bytes :=
  (frames.filter fun f => f.isData || f.isContinuation).flatMap Frame.payload

/-- The data of messages that are no control frames. -/
def dataOf (messages : List Message) : Bytes :=
  (messages.filter fun m => !m.kind.isControl).flatMap Message.data

/-! ## Attempts at a message -/

/-- What has been collected of a message until it was completed, or given up for another one. -/
structure Attempt where
  data : Bytes
  completed : Bool

/-- The bytes of an attempt that a reader gets. -/
def Attempt.returned (a : Attempt) : Bytes := if a.completed then a.data else []

theorem Attempt.returned_prefix (a : Attempt) : a.returned <+: a.data := by
  rw [returned]
  split
  · exact List.prefix_rfl
  · exact List.nil_prefix

/-- The attempts that a frame puts an end to. -/
def Frame.attempts (unfinished : Bytes) (f : Frame) : List Attempt :=
  if f.isData then ⟨unfinished, false⟩ :: if f.final then [⟨f.payload, true⟩] else []
  else if f.isContinuation then if f.final then [⟨unfinished ++ f.payload, true⟩] else []
  else []

/-- The attempts that frames make, behind the bytes of a message that has not been completed. -/
def attempts (unfinished : Bytes) : List Frame → List Attempt
  | [] => []
  | f :: frames => f.attempts unfinished ++ attempts (f.extend unfinished) frames

theorem attempts_append (u : Bytes) (frames others : List Frame) :
    attempts u (frames ++ others) =
      attempts u frames ++ attempts (frames.foldl Frame.extend u) others := by
  induction frames generalizing u with
  | nil => rfl
  | cons f frames ih =>
    rw [List.cons_append, attempts, attempts, ih, List.foldl_cons, List.append_assoc]

/-- **Where payloads go**: to the attempts, and behind them to what is unfinished. -/
theorem payloads_eq (u : Bytes) (frames : List Frame) :
    u ++ payloads frames =
      (attempts u frames).flatMap Attempt.data ++ frames.foldl Frame.extend u := by
  induction frames generalizing u with
  | nil => exact List.append_nil u
  | cons f frames ih =>
    -- one frame ends some attempts and leaves the rest unfinished
    have hframe : u ++ payloads [f] =
        (f.attempts u).flatMap Attempt.data ++ f.extend u := by
      rw [payloads, Frame.attempts, Frame.extend]
      cases hd : f.isData <;> cases hc : f.isContinuation <;> cases f.final <;> simp [hd, hc]
    have hcons : payloads (f :: frames) = payloads [f] ++ payloads frames := by
      rw [payloads, payloads, payloads, ← List.flatMap_append, ← List.filter_append]
      rfl
    rw [hcons, ← List.append_assoc, hframe, List.append_assoc, ih, attempts, List.flatMap_append,
      List.foldl_cons, List.append_assoc]

/-- An attempt with some data is given up exactly where a data frame finds it unfinished. -/
theorem attempts_returned_iff (u : Bytes) (frames : List Frame) :
    (∀ a ∈ attempts u frames, a.returned = a.data) ↔
      ∀ earlier f later, frames = earlier ++ f :: later → f.isData = true →
        earlier.foldl Frame.extend u = [] := by
  induction frames generalizing u with
  | nil => simp [attempts]
  | cons f frames ih =>
    have hframe : (∀ a ∈ f.attempts u, a.returned = a.data) ↔ (f.isData = true → u = []) := by
      rw [Frame.attempts]
      cases f.isData <;> cases f.isContinuation <;> cases f.final <;> simp [Attempt.returned]
    rw [attempts, List.forall_mem_append, hframe, ih]
    constructor
    · rintro ⟨hfirst, hrest⟩ earlier g later heq hg
      cases earlier with
      | nil =>
        cases heq
        exact hfirst hg
      | cons f' earlier =>
        cases heq
        exact hrest earlier g later rfl hg
    · intro h
      refine ⟨h [] f frames rfl, fun earlier g later heq => h (f :: earlier) g later ?_⟩
      rw [heq, List.cons_append]

/-! ## What reads return -/

/-- What reads return of the attempts. -/
def returned (u : Bytes) (frames : List Frame) : Bytes :=
  (attempts u frames).flatMap Attempt.returned

theorem returned_append (u : Bytes) (frames others : List Frame) :
    returned u (frames ++ others) =
      returned u frames ++ returned (frames.foldl Frame.extend u) others := by
  rw [returned, attempts_append, List.flatMap_append, returned, returned]

theorem returned_cons (u : Bytes) (f : Frame) (frames : List Frame) :
    returned u (f :: frames) = returned u [f] ++ returned (f.extend u) frames :=
  returned_append u [f] frames

section

variable {f : Frame} {fragments : Option Message} {m : Message} {u : Bytes}
  (hu : ∀ m ∈ fragments, m.data = u)

include hu

theorem returned_message (h : f.heard fragments = .ok (.message m)) : returned u [f] = m.data := by
  have hears := heard_spec f fragments
  rw [h] at hears
  cases hears with
  | @completes m₀ hop hf =>
    simp [returned, attempts, Frame.attempts, Attempt.returned, Frame.isContinuation,
      Frame.not_isData_of_continuation hop, hop, hf, hu m₀ rfl]
  | whole hkind hc hf =>
    simp [returned, attempts, Frame.attempts, Attempt.returned, Frame.isData_of_kind hkind hc, hf]

theorem returned_fragments (h : f.heard fragments = .ok (.fragments m)) :
    returned u [f] = [] ∧ m.data = f.extend u := by
  have hears := heard_spec f fragments
  rw [h] at hears
  cases hears with
  | @continues m₀ hop hf =>
    simp [returned, attempts, Frame.attempts, Frame.extend, Frame.isContinuation,
      Frame.not_isData_of_continuation hop, hop, hf, hu m₀ rfl]
  | begins hkind hc hf =>
    simp [returned, attempts, Frame.attempts, Frame.extend, Attempt.returned,
      Frame.isData_of_kind hkind hc, hf]

end

theorem returned_control {f : Frame} {fragments : Option Message} {m : Message} (u : Bytes)
    (h : f.heard fragments = .ok (.control m)) : returned u [f] = [] ∧ m.kind.isControl = true := by
  have hears := heard_spec f fragments
  rw [h] at hears
  cases hears with
  | control hkind hc =>
    obtain ⟨hdata, hcont⟩ := Frame.not_isData_of_control hkind hc
    simp [returned, attempts, Frame.attempts, hdata, hcont, hc]

theorem dataOf_cons (m : Message) (messages : List Message) :
    dataOf (m :: messages) = dataOf [m] ++ dataOf messages := by
  rw [dataOf, dataOf, dataOf, ← List.flatMap_append, ← List.filter_append]
  rfl

/-- **What a read takes for the message that it returns**, by induction on its rounds: the
fragments that it has are the data of the attempt that is going on. -/
theorem hearLoop_returned {d : Deadline} {fuel : Nat} {fragments : Option Message} {u : Bytes}
    {w w' : Wire} {m : Message} (hu : ∀ m ∈ fragments, m.data = u) (hplain : Plain fragments)
    (h : hearLoop d fuel fragments w = (.ok m, w')) :
    ∃ c frames, w.unread = c ++ w'.unread ∧ Framed c frames ∧ returned u frames = dataOf [m] := by
  induction fuel generalizing fragments u w with
  | zero => cases h
  | succ fuel ih =>
    rw [hearLoop, Io.bind_apply, readFrame_eq] at h
    rcases hrun : Frame.reader.run d readOperation w with ⟨r, w₁⟩
    rw [hrun] at h
    cases Reader.run_spec hrun with
    | broken => cases h
    | @done c r w₁ ht hfeed =>
      rcases r with e | f
      · cases h
      · dsimp only at h
        have hone : Framed c [f] := .cons hfeed .nil
        rcases hheard : f.heard fragments with e | ⟨m' | m' | m'⟩
        · rw [hheard] at h
          cases h
        · rw [hheard] at h
          cases h
          refine ⟨c, [f], ht.unread, hone, ?_⟩
          rw [returned_message hu hheard]
          simp [dataOf, plain_message hplain hheard]
        · rw [hheard] at h
          cases h
          obtain ⟨hnone, hc⟩ := returned_control u hheard
          refine ⟨c, [f], ht.unread, hone, ?_⟩
          rw [hnone]
          simp [dataOf, hc]
        · -- the attempt goes on, with the data of this frame behind what there is
          rw [hheard] at h
          obtain ⟨hnone, hdata⟩ := returned_fragments hu hheard
          have hu' : ∀ m'' ∈ some m', m''.data = f.extend u := by
            rintro _ ⟨⟩
            exact hdata
          obtain ⟨c', frames, hunread, hframed, hreturned⟩ :=
            ih hu' (plain_fragments hplain hheard) h
          refine ⟨c ++ c', f :: frames, ?_, hone.append hframed, ?_⟩
          · rw [ht.unread, hunread, List.append_assoc]
          · rw [returned_cons, hnone, List.nil_append, hreturned]

theorem read_returned {d : Deadline} {s s' : WebSocket} {w w' : Wire} {m : Message} (u : Bytes)
    (h : read d (s, w) = (.ok m, (s', w'))) :
    ∃ c frames, w.unread = c ++ w'.unread ∧ Framed c frames ∧ returned u frames = dataOf [m] := by
  rw [read_eq] at h
  split at h
  · cases h
  · rw [readLoop_eq d _ (fun _ hm => by cases hm) s w] at h
    rcases hhear : hearLoop d (w.unread.length + 1) none w with ⟨e | m', w₁⟩
    · rw [hhear] at h
      cases h
    · rw [hhear] at h
      dsimp only at h
      rcases hans : answer m'.kind m'.data (s, w₁) with ⟨e | r, s₂, w₂⟩
      · rw [hans] at h
        cases h
      · rw [hans] at h
        cases h
        obtain ⟨c, frames, hunread, hframed⟩ :=
          hearLoop_returned (u := u) (fun _ hm => by cases hm) (fun _ hm => by cases hm) hhear
        cases answer_spec hans with
        | ok hin =>
          have hsame : w'.unread = w₁.unread := congrArg (List.flatMap Arrival.data) hin
          exact ⟨c, frames, by rw [hsame, hunread], hframed⟩

/-- **Reads that succeed return the attempts that are completed**, whatever was unfinished before
the first of them. -/
theorem outcomes_returned (ds : List Deadline) {σ : WebSocket × Wire} {messages : List Message}
    (h : outcomes ds σ = messages.map .ok) (u : Bytes) :
    ∃ c frames, σ.2.unread = c ++ (behind ds σ).2.unread ∧ Framed c frames ∧
      returned u frames = dataOf messages := by
  induction ds generalizing σ messages u with
  | nil =>
    obtain rfl : messages = [] := List.map_eq_nil_iff.1 h.symm
    exact ⟨[], [], rfl, .nil, rfl⟩
  | cons d ds ih =>
    obtain ⟨s, w⟩ := σ
    cases messages with
    | nil => cases h
    | cons m messages =>
      rcases hread : read d (s, w) with ⟨r, s', w'⟩
      rw [outcomes, hread, List.map_cons] at h
      obtain ⟨rfl, hlater⟩ := List.cons.inj h
      obtain ⟨c, frames, hunread, hframed, hreturned⟩ := read_returned u hread
      obtain ⟨c', others, hunread', hframed', hreturned'⟩ :=
        ih hlater (frames.foldl Frame.extend u)
      have hbehind : behind (d :: ds) (s, w) = behind ds (s', w') := by
        rw [behind, List.foldl_cons, hread, behind]
      refine ⟨c ++ c', frames ++ others, ?_, hframed.append hframed', ?_⟩
      · rw [hunread, hunread', hbehind, List.append_assoc]
      · rw [returned_append, hreturned, hreturned', ← dataOf_cons]

/-- **When no payload is lost.**  Successive reads have all returned a message, whatever the peer
has sent and however it arrives.  They have taken whole frames.  The payloads of the data frames and
continuations among these are the data of the messages that were returned, and behind them what is
unfinished, if and only if no data frame has arrived while a message with some payload was
unfinished. -/
theorem payloads_conserved_iff {ds : List Deadline} {s : WebSocket} {w : Wire}
    {messages : List Message} (h : outcomes ds (s, w) = messages.map .ok) :
    ∃ taken frames, w.unread = taken ++ (behind ds (s, w)).2.unread ∧
      (∀ others, Framed taken others ↔ others = frames) ∧
      (payloads frames = dataOf messages ++ unfinished frames ↔
        ∀ earlier f later, frames = earlier ++ f :: later → f.isData = true →
          unfinished earlier = []) := by
  obtain ⟨taken, frames, hunread, hframed, hreturned⟩ := outcomes_returned ds h []
  refine ⟨taken, frames, hunread, hframed.iff_eq, ?_⟩
  have hall := payloads_eq [] frames
  rw [List.nil_append] at hall
  rw [hall, unfinished, List.append_left_inj, ← hreturned, returned, eq_comm,
    flatMap_eq_flatMap_iff fun a _ => a.returned_prefix, attempts_returned_iff]
  rfl

/-- A greeting in two pieces and a ping, and then a binary that is begun when another ping comes. -/
theorem payloads_conserved_begun :
    let talk : List Piece := [⟨⟨false, 1, [104, 101, 108]⟩, some (1, 2, 3, 4)⟩,
      ⟨⟨true, 0, [108, 111]⟩, none⟩, ⟨⟨true, 9, [7]⟩, none⟩, ⟨⟨false, 2, [9]⟩, none⟩,
      ⟨⟨true, 9, []⟩, none⟩]
    let frames := talk.map Piece.frame
    outcomes [.never, .never, .never] ({ writeDeadline := .never }, carrying (stream talk)) =
        [.ok ⟨.text, [104, 101, 108, 108, 111]⟩, .ok ⟨.ping, [7]⟩, .ok ⟨.ping, []⟩] ∧
      unfinished frames = [9] ∧
      payloads frames = [104, 101, 108, 108, 111] ++ unfinished frames := by
  intro talk frames
  have hout : outcomes [.never, .never, .never]
      ({ writeDeadline := .never }, carrying (stream talk)) =
        [⟨.text, [104, 101, 108, 108, 111]⟩, ⟨.ping, [7]⟩, ⟨.ping, []⟩].map .ok := by
    decide +kernel
  obtain ⟨taken, frames', hunread, hunique, hiff⟩ := payloads_conserved_iff hout
  have hrest : (behind [.never, .never, .never]
      ({ writeDeadline := .never }, carrying (stream talk))).2.unread = [] := by
    decide +kernel
  have htaken : stream talk = taken := by
    rw [hrest, List.append_nil] at hunread
    exact hunread
  obtain rfl : frames = frames' := (hunique frames).1 (htaken ▸ Framed.stream (by decide))
  exact ⟨hout, rfl, hiff.2 ((attempts_returned_iff [] frames).1 (by decide))⟩

/-- A text that arrives while another one is unfinished is returned, and the beginning of the other
one is lost. -/
theorem payload_overwritten :
    let talk : List Piece := [⟨⟨false, 1, [104, 101, 108]⟩, none⟩, ⟨⟨true, 1, [108, 111]⟩, none⟩]
    let frames := talk.map Piece.frame
    let σ : WebSocket × Wire := ({ writeDeadline := .never }, carrying (stream talk))
    Framed (stream talk) frames ∧ outcomes [.never] σ = [.ok ⟨.text, [108, 111]⟩] ∧
      (behind [.never] σ).2.unread = [] ∧
      payloads frames ≠ dataOf [⟨.text, [108, 111]⟩] ++ unfinished frames :=
  ⟨Framed.stream (by decide), rfl, rfl, by decide⟩

end ScriptHost.WebSocket
