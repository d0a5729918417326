import ScriptHost.Proofs.Stream.Request

/-!
# Reading the body of a request

A body is as many bytes of the stream as the head says, and a script may read it in any mixture of
styles: some bytes, one byte, as plain input, or all that is left.  All of them come down to one
countdown, and this file says what it is worth.

* `Exchange.Takes` — what reading from a body does to a request: it takes bytes off the wire, and
  counts them.
* `Act.Reads` and `Act.ReadsAll` — what comes of one read, and of reading to the end.  A read fails
  before its deadline only if it waits for bytes that never come.
* `Draw.Answers` and `Draw.Fails` — what a read in any of the styles does, and `Draw.act_ends`, that
  it does.
* `Drained` — what is known of a request after any sequence of reads (`Drawing`), one of which may
  have met the end; `body_of_drawing` is the law that follows.
-/

set_option autoImplicit false

namespace ScriptHost

/-! ## Taking and counting -/

namespace Exchange

/-- A request whose body can be read: it is open, and has its transport, which does not break. -/
structure Readable (x : Exchange) : Prop where
  opened : x.context.phase.isTerminal = false
  attached : x.context.attached = true
  calm : x.wire.Calm

/-- Bytes are taken off the wire and counted; no more of them than are left of the body. -/
structure Takes (x : Exchange) (data : Bytes) (x' : Exchange) : Prop where
  took : x.wire.Took data x'.wire
  within : data.length + x'.context.remaining ≤ x.context.remaining
  deadline : x'.context.deadline = x.context.deadline

theorem Takes.refl (x : Exchange) : x.Takes [] x := ⟨.refl _, by simp, rfl⟩

theorem Takes.trans {x x' x'' : Exchange} {data data' : Bytes} (h : x.Takes data x')
    (h' : x'.Takes data' x'') : x.Takes (data ++ data') x'' where
  took := h.took.trans h'.took
  within := by
    have := h.within
    have := h'.within
    rw [List.length_append]
    omega
  deadline := h'.deadline.trans h.deadline

/-- The client has closed, and all that it has sent has been taken. -/
def Exhausted (x : Exchange) : Prop := x.wire.transport.ended = true ∧ x.wire.unread = []

/-- The client has not closed, but nothing more comes. -/
def Starved (x : Exchange) : Prop := x.wire.transport.ended = false ∧ x.wire.unread = []

end Exchange

namespace Act

open Exchange

/-- What comes of a read of at most `max` bytes of a body. -/
inductive Reads (x : Exchange) (max : Nat) : Outcome Bytes → Exchange → Prop
  | bytes {data : Bytes} {x' : Exchange} : x.Takes data x' → x'.Readable → data ≠ [] →
      data.length ≤ max → data.length + x'.context.remaining = x.context.remaining →
      Reads x max (.ok data) x'
  | idle : max = 0 ∨ x.context.remaining = 0 → Reads x max (.ok []) x
  | finished {x' : Exchange} : x.Takes [] x' → x'.Readable → 0 < max → x'.context.remaining = 0 →
      x'.Exhausted → Reads x max (.ok []) x'
  | failed {e : Failure} {x' : Exchange} : x.Takes [] x' → 0 < x.context.remaining →
      (x.context.deadline.isExpired x'.wire.clock = false → x'.Starved) →
      Reads x max (.error e) x'

theorem Reads.length_le {x x' : Exchange} {max : Nat} {data : Bytes}
    (h : Reads x max (.ok data) x') : data.length ≤ max := by
  cases h with
  | bytes _ _ _ hle _ => exact hle
  | idle | finished => exact Nat.zero_le _

theorem readBody_apply (max : Nat) {x : Exchange} (h : x.Readable) :
    readBody max x =
      if x.context.remaining = 0 ∨ max = 0 then (.ok [], x)
      else
        match Io.readSome x.context.deadline "read request body"
            (Nat.min max x.context.remaining) x.wire with
        | (.ok data, w) => (.ok data, { x with
            wire := w
            context := { x.context with
              remaining := if data.isEmpty then 0 else x.context.remaining - data.length } })
        | (.error e, w) => (.error e, { x with
            wire := w
            context :=
              if e.isTimeout then { x.context with phase := .timedOut } else x.context }) := by
  rw [readBody, ensureOpen_bind _ _ h.opened, context_bind]
  by_cases hidle : x.context.remaining = 0 ∨ max = 0
  · rw [if_pos hidle, if_pos (by simpa using hidle)]
    rfl
  · rw [if_neg hidle, if_neg (by simpa using hidle), bind_apply, transfer, if_pos h.attached]
    rcases Io.readSome x.context.deadline "read request body"
      (Nat.min max x.context.remaining) x.wire with ⟨e | data, w⟩ <;> rfl

/-- **One read.** -/
theorem readBody_spec (max : Nat) {x : Exchange} (h : x.Readable) :
    Reads x max (readBody max x).1 (readBody max x).2 := by
  rw [readBody_apply max h]
  by_cases hidle : x.context.remaining = 0 ∨ max = 0
  · rw [if_pos hidle]
    exact .idle hidle.symm
  · rw [if_neg hidle]
    have hpos : 0 < Nat.min max x.context.remaining := by
      rw [not_or] at hidle
      exact Nat.lt_min.2 ⟨Nat.pos_of_ne_zero hidle.2, Nat.pos_of_ne_zero hidle.1⟩
    rcases hr : Io.readSome x.context.deadline "read request body"
      (Nat.min max x.context.remaining) x.wire with ⟨e | data, w⟩
    · have hs := Wire.receive_spec hpos hr
      refine .failed ⟨hs.took, ?_, ?_⟩ (Nat.lt_of_lt_of_le hpos (Nat.min_le_right ..)) ?_
      · dsimp only
        split <;> simp
      · dsimp only
        split <;> rfl
      · -- on a calm wire nothing but the deadline can end a read without any bytes
        intro hlive
        refine ⟨?_, hs.drained rfl (.inr ⟨h.calm, .inr hlive⟩)⟩
        rw [Bool.eq_false_iff]
        intro hended
        rw [hs.failed rfl h.calm (hs.took.ended.symm.trans hended)] at hlive
        cases hlive
    · have hs := Wire.receive_spec hpos hr
      have hle : data.length ≤ Nat.min max x.context.remaining := hs.size
      have hreadable (c : Context) (hphase : c.phase = x.context.phase)
          (hattached : c.attached = x.context.attached) :
          ({ x with wire := w, context := c } : Exchange).Readable :=
        ⟨by rw [hphase, h.opened], by rw [hattached, h.attached], hs.took.calm h.calm⟩
      by_cases hdata : data = []
      · subst hdata
        refine .finished ⟨hs.took, by simp, rfl⟩ (hreadable _ rfl rfl) ?_ rfl ?_
        · exact Nat.lt_of_lt_of_le hpos (Nat.min_le_left ..)
        exact ⟨hs.took.ended.trans (hs.closed rfl), hs.drained rfl (.inl rfl)⟩
      · have hcount : data.length + (x.context.remaining - data.length) = x.context.remaining :=
          Nat.add_sub_cancel' (Nat.le_trans hle (Nat.min_le_right ..))
        simp only [List.isEmpty_iff, hdata, if_false]
        exact .bytes ⟨hs.took, Nat.le_of_eq hcount, rfl⟩ (hreadable _ rfl rfl) hdata
          (Nat.le_trans hle (Nat.min_le_left ..)) hcount

/-- What comes of reading a body to its end. -/
inductive ReadsAll (x : Exchange) : Outcome Bytes → Exchange → Prop
  | all {data : Bytes} {x' : Exchange} : x.Takes data x' → x'.Readable → x'.context.remaining = 0 →
      (x'.Exhausted ∨ data.length = x.context.remaining) → ReadsAll x (.ok data) x'
  | failed {data : Bytes} {e : Failure} {x' : Exchange} : x.Takes data x' →
      data.length < x.context.remaining →
      (x.context.deadline.isExpired x'.wire.clock = false → x'.Starved) →
      ReadsAll x (.error e) x'

/-- **Reading to the end.**  The induction is on the rounds; what it carries is that no byte has
been missed so far: what has been read and what is left make up the body as it was. -/
theorem readRest_spec (fuel : Nat) (got : Bytes) {x₀ x : Exchange} (h₀ : x₀.Takes got x)
    (h : x.Readable) (hcount : got.length + x.context.remaining = x₀.context.remaining)
    (hfuel : x.context.remaining < fuel) :
    ReadsAll x₀ (readRest fuel got x).1 (readRest fuel got x).2 := by
  induction fuel generalizing got x with
  | zero => omega
  | succ fuel ih =>
    have hstep := readBody_spec chunkSize h
    rw [readRest, bind_apply]
    rcases hr : readBody chunkSize x with ⟨e | chunk, x'⟩
    · rw [hr] at hstep
      cases hstep with
      | failed htakes hpos hstarved =>
        have ht := h₀.trans htakes
        rw [List.append_nil] at ht
        rw [h₀.deadline] at hstarved
        exact .failed ht (by omega) hstarved
    · rw [hr] at hstep
      dsimp only at hstep ⊢
      cases hstep with
      | bytes htakes hreadable hsome _ hexact =>
        rw [if_neg (by simpa using hsome)]
        have hpos := List.length_pos_iff.2 hsome
        refine ih _ (h₀.trans htakes) hreadable ?_ (by omega)
        rw [List.length_append]
        omega
      | idle hidle =>
        have hzero := hidle.resolve_left (by decide)
        exact .all h₀ h hzero (.inr (by omega))
      | finished htakes hreadable _ hzero hexhausted =>
        have ht := h₀.trans htakes
        rw [List.append_nil] at ht
        exact .all ht hreadable hzero (.inl hexhausted)

/-- Plain input reads to the end as the others do, and keeps what it has read when that fails. -/
theorem readToEnd_cases (fuel : Nat) (got : Bytes) (x : Exchange) :
    (∃ data x', readRest fuel got x = (.ok data, x') ∧
      readToEnd fuel got x = (.ok (data, none), x')) ∨
    ∃ e x' data, readRest fuel got x = (.error e, x') ∧
      readToEnd fuel got x = (.ok (data, some (asIoFault e)), x') := by
  induction fuel generalizing got x with
  | zero => exact .inl ⟨got, x, rfl, rfl⟩
  | succ fuel ih =>
    rw [readRest, bind_apply, readToEnd]
    dsimp only
    rcases readBody chunkSize x with ⟨e | chunk, x'⟩
    · exact .inr ⟨e, x', got, rfl, rfl⟩
    · dsimp only
      split
      · exact .inl ⟨got, x', rfl, rfl⟩
      · exact ih _ x'

theorem reader_apply {x : Exchange} (h : x.Readable) :
    reader x = (.ok (), { x with context := { x.context with phase := .bodyStreaming } }) := by
  rw [reader, ensureOpen_bind _ _ h.opened]
  rfl

theorem readable_reader {x : Exchange} (h : x.Readable) :
    ({ x with context := { x.context with phase := .bodyStreaming } } : Exchange).Readable :=
  ⟨rfl, h.attached, h.calm⟩

end Act

/-! ## Reading in any style -/

theorem Head.headers_new (method url : String) : (Head.new method url).headers = [] := rfl

namespace Request

open Act Exchange

/-- A read from a body: through a reader that is open, or of all that is left. -/
inductive Draw where
  | read (r : Read)
  | body

namespace Draw

/-- What a draw does. -/
def act : Draw → Act ReadReply
  | read r => doRead r
  | body => .bytes <$> Act.body

/-- How many bytes are asked for, unless it is all of them. -/
def limit : Draw → Option Nat
  | read (.bytes count) | read (.plain count) => some count
  | read .byte => some 1
  | read .remaining => some 0
  | read .plainToEnd | body => none

end Draw

namespace ReadReply

/-- The bytes of a body that a reply brings. -/
def data : ReadReply → Bytes
  | bytes data | upTo data _ => data
  | byte b => b.toList
  | remaining _ | fault _ => []

/-- The reply tells of a failure, which plain input does in its own way. -/
def isFault : ReadReply → Bool
  | fault _ | upTo _ _ => true
  | bytes _ | byte _ | remaining _ => false

end ReadReply

namespace Draw

/-- The reply shows that nothing more is to be had: all was asked for, or something was and nothing
came. -/
def meetsEnd (d : Draw) (reply : ReadReply) : Bool :=
  match d.limit with
  | none => true
  | some count => count ≠ 0 && reply.data.isEmpty

/-- What a read is worth that succeeds. -/
structure Answers (d : Draw) (x : Exchange) (reply : ReadReply) (x' : Exchange) : Prop where
  proper : reply.isFault = false
  takes : x.Takes reply.data x'
  readable : x'.Readable
  size : ∀ count ∈ d.limit, reply.data.length ≤ count
  remaining : x'.context.remaining =
    if d.meetsEnd reply then 0 else x.context.remaining - reply.data.length
  whole : d.meetsEnd reply = true →
    x'.Exhausted ∨ reply.data.length = x.context.remaining
  told : d = .read .remaining → reply = .remaining x.context.remaining

/-- What becomes of a request when a read fails. -/
structure Fails (x x' : Exchange) : Prop where
  takes : ∃ data, x.Takes data x' ∧ data.length < x.context.remaining
  starved : x.context.deadline.isExpired x'.wire.clock = false → x'.Starved

/-- A read succeeds or fails. -/
inductive Ends (d : Draw) (x : Exchange) : Outcome ReadReply → Exchange → Prop
  | answered {reply : ReadReply} {x' : Exchange} : d.Answers x reply x' → Ends d x (.ok reply) x'
  | failed {r : Outcome ReadReply} {x' : Exchange} :
    (∀ reply, r = .ok reply → reply.isFault = true) →
      Fails x x' → Ends d x r x'

variable {d : Draw} {x x' : Exchange} {max : Nat} {data : Bytes} {e : Failure}

theorem answers_of_reads {reply : ReadReply} (hlimit : d.limit = some max)
    (hother : d ≠ .read .remaining) (hproper : reply.isFault = false) (hreply : reply.data = data)
    (h : Reads x max (.ok data) x') (hx : x.Readable) : d.Answers x reply x' := by
  have hmeets : d.meetsEnd reply = (max ≠ 0 && data.isEmpty) := by rw [meetsEnd, hlimit, hreply]
  have hsize (hle : data.length ≤ max) : ∀ count ∈ d.limit, reply.data.length ≤ count := by
    intro count hcount
    rw [hlimit] at hcount
    cases hcount
    rwa [hreply]
  cases h with
  | bytes htakes hreadable hsome hle hexact =>
    have hmore : d.meetsEnd reply = false := by
      rw [hmeets]
      simp [hsome]
    refine ⟨hproper, by rwa [hreply], hreadable, hsize hle, ?_, ?_, fun h => absurd h hother⟩
    · rw [hmore, hreply, if_neg Bool.false_ne_true]
      omega
    · rw [hmore]
      exact fun h => Bool.noConfusion h
  | idle hidle =>
    refine ⟨hproper, by rw [hreply]; exact .refl _, hx, hsize (Nat.zero_le _), ?_, ?_,
      fun h => absurd h hother⟩
    · rw [hmeets, hreply]
      rcases hidle with hzero | hzero
      · simp [hzero]
      · simp [hzero]
    · rw [hmeets, hreply]
      intro hmeets
      rcases hidle with hzero | hzero
      · simp [hzero] at hmeets
      · exact .inr hzero.symm
  | finished htakes hreadable hpos hzero hexhausted =>
    have hover : d.meetsEnd reply = true := by
      rw [hmeets]
      simpa using Nat.ne_of_gt hpos
    exact ⟨hproper, by rwa [hreply], hreadable, hsize (Nat.zero_le _),
      by rw [hover, if_pos rfl, hzero],
      fun _ => .inl hexhausted, fun h => absurd h hother⟩

theorem fails_of_reads (h : Reads x max (.error e) x') : Fails x x' := by
  cases h with
  | failed htakes hpos hstarved => exact ⟨⟨[], htakes, hpos⟩, hstarved⟩

theorem answers_of_readsAll {reply : ReadReply} (hlimit : d.limit = none)
    (hproper : reply.isFault = false) (hreply : reply.data = data)
    (h : ReadsAll x (.ok data) x') : d.Answers x reply x' := by
  have hmeets : d.meetsEnd reply = true := by rw [meetsEnd, hlimit]
  cases h with
  | all htakes hreadable hzero hwhole =>
    refine ⟨hproper, by rwa [hreply], hreadable, ?_, by rw [hmeets, if_pos rfl, hzero],
      fun _ => by rwa [hreply], ?_⟩
    · rw [hlimit]
      exact fun _ h => nomatch h
    · rintro rfl
      cases hlimit

theorem fails_of_readsAll (h : ReadsAll x (.error e) x') : Fails x x' := by
  cases h with
  | failed htakes hless hstarved => exact ⟨⟨_, htakes, hless⟩, hstarved⟩

theorem data_byte (hle : data.length ≤ 1) : (ReadReply.byte data.head?).data = data := by
  cases data with
  | nil => rfl
  | cons b rest =>
    obtain rfl : rest = [] := List.length_eq_zero_iff.1 (by simpa using hle)
    rfl

/-- **Every read from a body that can be read** does what it should, or waits for bytes that do not
come before the deadline. -/
theorem act_ends (d : Draw) (hx : x.Readable) : d.Ends x (d.act x).1 (d.act x).2 := by
  have failed {e : Failure} {x' : Exchange} (h : Fails x x') : d.Ends x (.error e) x' :=
    .failed (fun _ h => by cases h) h
  have all : ReadsAll x (Act.body x).1 (Act.body x).2 := by
    rw [Act.body, bind_apply, reader_apply hx]
    refine readRest_spec _ [] ⟨.refl _, ?_, rfl⟩ (readable_reader hx) ?_ ?_
    · simp
    · simp
    · exact Nat.lt_succ_self _
  cases d with
  | body =>
    rw [act, map_apply]
    rcases hr : Act.body x with ⟨e | data, x'⟩ <;> rw [hr] at all
    · exact failed (fails_of_readsAll all)
    · exact .answered (answers_of_readsAll rfl rfl rfl all)
  | read r =>
    cases r with
    | bytes count =>
      have h := readBody_spec count hx
      rw [act, doRead, map_apply]
      rcases hr : readBody count x with ⟨e | data, x'⟩ <;> rw [hr] at h
      · exact failed (fails_of_reads h)
      · exact .answered (answers_of_reads rfl (by simp) rfl rfl h hx)
    | byte =>
      have h := readBody_spec 1 hx
      rw [act, doRead, map_apply, readByte, bind_apply]
      rcases hr : readBody 1 x with ⟨e | data, x'⟩ <;> rw [hr] at h
      · exact failed (fails_of_reads h)
      · exact .answered (answers_of_reads rfl (by simp) rfl (data_byte h.length_le) h hx)
    | remaining =>
      refine .answered ⟨rfl, .refl _, hx, ?_, rfl, fun h => (by cases h), fun _ => rfl⟩
      exact fun _ _ => Nat.zero_le _
    | plain count =>
      have h := readBody_spec count hx
      rw [act, doRead]
      rcases hr : readBody count x with ⟨e | data, x'⟩ <;> rw [hr] at h <;> simp only [hr]
      · exact .failed (fun _ h => by cases h; rfl) (fails_of_reads h)
      · exact .answered (answers_of_reads rfl (by simp) rfl rfl h hx)
    | plainToEnd =>
      have h := readRest_spec _ [] (.refl x) hx (Nat.zero_add _) (Nat.lt_succ_self _)
      rw [act, doRead, context_bind, bind_apply]
      rcases readToEnd_cases (x.context.remaining + 1) [] x with
        ⟨data, x', hrest, hend⟩ | ⟨e, x', data, hrest, hend⟩ <;> rw [hrest] at h <;> rw [hend]
      · exact .answered (answers_of_readsAll rfl rfl rfl h)
      · exact .failed (fun _ h => by cases h; rfl) (fails_of_readsAll h)

end Draw

/-! ## A whole body -/

/-- Reads from a body, one after the other, each of which succeeds.  A reader is opened now and
then, and time passes in between. -/
inductive Drawing (x₀ : Exchange) : List (Draw × ReadReply) → Exchange → Prop
  | start : Drawing x₀ [] x₀
  | reader {done : List (Draw × ReadReply)} {x : Exchange} : Drawing x₀ done x →
      Drawing x₀ done (Act.reader x).2
  | pause {done : List (Draw × ReadReply)} {x : Exchange} : Drawing x₀ done x → ∀ clock,
      Drawing x₀ done { x with wire := { x.wire with clock } }
  | draw {done : List (Draw × ReadReply)} {x : Exchange} {reply : ReadReply} : Drawing x₀ done x →
      ∀ d : Draw, (d.act x).1 = .ok reply → reply.isFault = false →
        Drawing x₀ (done ++ [(d, reply)]) (d.act x).2

/-- All that has been read. -/
def drawn (done : List (Draw × ReadReply)) : Bytes := done.flatMap (·.2.data)

/-- A read has shown that nothing more is to be had. -/
def metEnd (done : List (Draw × ReadReply)) : Bool := done.any fun (d, reply) => d.meetsEnd reply

/-- What is known of a request after reads from its body of `N` bytes. -/
structure Drained (N : Nat) (w₀ : Wire) (done : List (Draw × ReadReply)) (x : Exchange) : Prop where
  readable : x.Readable
  unread : w₀.unread = drawn done ++ x.wire.unread
  ended : x.wire.transport.ended = w₀.transport.ended
  within : (drawn done).length + x.context.remaining ≤ N
  remaining : x.context.remaining = if metEnd done then 0 else N - (drawn done).length
  whole : metEnd done = true → x.Exhausted ∨ (drawn done).length = N

variable {N : Nat} {w₀ : Wire} {done : List (Draw × ReadReply)} {x x' : Exchange} {d : Draw}
  {reply : ReadReply}

theorem drawn_concat (done : List (Draw × ReadReply)) (d : Draw) (reply : ReadReply) :
    drawn (done ++ [(d, reply)]) = drawn done ++ reply.data := by
  simp [drawn]

theorem metEnd_concat (done : List (Draw × ReadReply)) (d : Draw) (reply : ReadReply) :
    metEnd (done ++ [(d, reply)]) = (metEnd done || d.meetsEnd reply) := by
  simp [metEnd]

theorem Drained.draw (h : Drained N w₀ done x) (hd : d.Answers x reply x') :
    Drained N w₀ (done ++ [(d, reply)]) x' := by
  have hlength := hd.takes.within
  have hwithin := h.within
  refine ⟨hd.readable, ?_, hd.takes.took.ended.trans h.ended, ?_, ?_, ?_⟩
  · rw [drawn_concat, List.append_assoc, ← hd.takes.took.unread, h.unread]
  · rw [drawn_concat, List.length_append]
    omega
  · rw [drawn_concat, metEnd_concat, List.length_append, hd.remaining, h.remaining]
    cases metEnd done <;> cases d.meetsEnd reply <;> simp [Nat.sub_add_eq]
  · rw [drawn_concat, metEnd_concat, List.length_append]
    intro hmet
    cases hold : metEnd done with
    | false =>
      rw [hold, Bool.false_or] at hmet
      refine (hd.whole hmet).imp_right fun hall => ?_
      rw [hall, h.remaining, hold, if_neg Bool.false_ne_true]
      omega
    | true =>
      -- nothing is left, so nothing came
      have hzero : x.context.remaining = 0 := by rw [h.remaining, hold, if_pos rfl]
      have hnone : reply.data.length = 0 := by omega
      refine (h.whole hold).imp (fun hexhausted => ?_) fun hall => by omega
      have hrest := hd.takes.took.unread
      rw [hexhausted.2] at hrest
      exact ⟨hd.takes.took.ended.trans hexhausted.1, (List.append_eq_nil_iff.1 hrest.symm).2⟩

theorem Drained.reader (h : Drained N w₀ done x) : Drained N w₀ done (Act.reader x).2 := by
  rw [reader_apply h.readable]
  exact ⟨readable_reader h.readable, h.unread, h.ended, h.within, h.remaining, h.whole⟩

/-- The end is the end of the body, or the client has closed too early. -/
theorem Drained.complete (h : Drained N w₀ done x) (hmet : metEnd done = true) :
    (drawn done).length = N ∨ w₀.transport.ended = true ∧ drawn done = w₀.unread := by
  refine (h.whole hmet).symm.imp_right fun hexhausted => ⟨h.ended.symm.trans hexhausted.1, ?_⟩
  rw [h.unread, hexhausted.2, List.append_nil]

/-- What has been taken off a stream, up to so many bytes. -/
theorem prefix_take_of_append {stream taken rest : Bytes} (h : stream = taken ++ rest)
    (hle : taken.length ≤ N) : taken <+: stream.take N ∧ rest = stream.drop taken.length := by
  subst h
  exact ⟨List.prefix_take_iff.2 ⟨List.prefix_append .., hle⟩, (List.drop_left ..).symm⟩

/-- Where the end has been met, the whole body has been read. -/
theorem Drained.drawn_eq_take (h : Drained N w₀ done x) (hmet : metEnd done = true) :
    drawn done = w₀.unread.take N := by
  have hle : (drawn done).length ≤ N := Nat.le_trans (Nat.le_add_right ..) h.within
  rcases h.complete hmet with hall | ⟨-, hall⟩
  · rw [h.unread, ← hall, List.take_left]
  · rw [← hall, List.take_of_length_le hle]

theorem drained_of_drawing {x₀ : Exchange} (hx : x₀.Readable) (h : Drawing x₀ done x) :
    Drained x₀.context.remaining x₀.wire done x := by
  induction h with
  | start => exact ⟨hx, rfl, rfl, Nat.le_of_eq (Nat.zero_add _), rfl, nofun⟩
  | reader _ ih => exact ih.reader
  | pause _ clock ih =>
    have hreadable := ih.readable
    exact ⟨⟨hreadable.opened, hreadable.attached, hreadable.calm⟩, ih.unread, ih.ended, ih.within,
      ih.remaining, ih.whole⟩
  | @draw done x reply _ d hreply hproper ih =>
    have hends := d.act_ends ih.readable
    rw [hreply] at hends
    cases hends with
    | answered hanswers => exact ih.draw hanswers
    | failed hfault _ =>
      rw [hfault reply rfl] at hproper
      cases hproper

/-! ## One more read -/

/-- Whatever becomes of a read, it takes some bytes off the rest of the body. -/
theorem Drained.further {data : Bytes} (h : Drained N w₀ done x) (htakes : x.Takes data x') :
    ∃ taken, taken <+: w₀.unread.take N ∧ x'.wire.unread = w₀.unread.drop taken.length := by
  have hwithin := h.within
  have hle := htakes.within
  have hunread : w₀.unread = (drawn done ++ data) ++ x'.wire.unread := by
    rw [List.append_assoc, ← htakes.took.unread, h.unread]
  exact ⟨_, prefix_take_of_append hunread (by rw [List.length_append]; omega)⟩

/-- A read that returns nothing asks for nothing, or there is no more. -/
theorem Drained.complete_of_empty (h : Drained N w₀ done x) (hd : d.Answers x reply x')
    (hnone : reply.data = []) :
    d.limit = some 0 ∨ (drawn done).length = N ∨
      w₀.transport.ended = true ∧ drawn done = w₀.unread := by
  by_cases hasked : d.limit = some 0
  · exact .inl hasked
  · have hmeets : d.meetsEnd reply = true := by
      rw [Draw.meetsEnd, hnone]
      cases hlimit : d.limit with
      | none => rfl
      | some count =>
        rw [hlimit] at hasked
        simpa using hasked
    have hcomplete := (h.draw hd).complete (by rw [metEnd_concat, hmeets, Bool.or_true])
    rw [drawn_concat, hnone, List.append_nil] at hcomplete
    exact .inr hcomplete

/-- A read that asks for everything returns the rest of the body. -/
theorem Drained.whole_of_unlimited (h : Drained N w₀ done x) (hd : d.Answers x reply x')
    (hlimit : d.limit = none) : drawn done ++ reply.data = w₀.unread.take N := by
  have hmeets : d.meetsEnd reply = true := by rw [Draw.meetsEnd, hlimit]
  rw [← drawn_concat]
  exact (h.draw hd).drawn_eq_take (by rw [metEnd_concat, hmeets, Bool.or_true])

/-- A read that fails before its deadline waits for bytes that never come. -/
theorem Drained.starved_of_fails (h : Drained N w₀ done x) (hd : Draw.Fails x x')
    (hlive : x.context.deadline.isExpired x'.wire.clock = false) :
    w₀.transport.ended = false ∧ x'.wire.unread = [] ∧ w₀.unread.length < N := by
  have hwithin := h.within
  obtain ⟨data, htakes, hless⟩ := hd.takes
  obtain ⟨hopen, hnone⟩ := hd.starved hlive
  refine ⟨?_, hnone, ?_⟩
  · rw [← h.ended, ← htakes.took.ended, hopen]
  · rw [h.unread, htakes.took.unread, hnone, List.append_nil, List.length_append]
    omega

/-- **Reading a body.**  The head of a new request says how long its body is, and what the client
sends arrives in whatever chunks; then it closes or stays.  After any sequence of reads, in any
style:

* what has been read is a beginning of the body, and exactly that has been taken off the transport;
* what is said to remain is the rest of the length, until a read has come upon the end;
* the next read returns no more than it asks for, something unless there is no more, and everything
  that is left if that was asked for; and whatever becomes of it, nothing behind the body is
  touched.  Before its deadline it fails only if it waits for bytes that never come. -/
theorem body_of_drawing {clock : Clock} {head : Head} {timeout : Int} {token : Token}
    {holder : Holder} {wire : Wire} (hcalm : wire.Calm) {done : List (Draw × ReadReply)}
    {x : Exchange}
    (h : Drawing { context := .new clock head timeout token holder, wire } done x) :
    let N := head.contentLength
    let body := wire.unread.take N
    drawn done <+: body ∧ x.wire.unread = wire.unread.drop (drawn done).length ∧
      x.context.remaining = (if metEnd done then 0 else N - (drawn done).length) ∧
      (metEnd done = true → (drawn done).length = N ∨
        wire.transport.ended = true ∧ drawn done = wire.unread) ∧
      ∀ d : Draw,
        (∃ taken, taken <+: body ∧
          (d.act x).2.wire.unread = wire.unread.drop taken.length) ∧
        (∀ reply, (d.act x).1 = .ok reply → reply.isFault = false →
          (∀ count ∈ d.limit, reply.data.length ≤ count) ∧
          (reply.data = [] → d.limit = some 0 ∨ (drawn done).length = N ∨
            wire.transport.ended = true ∧ drawn done = wire.unread) ∧
          (d.limit = none → drawn done ++ reply.data = body) ∧
          (d = .read .remaining → reply = .remaining x.context.remaining)) ∧
        (x.context.deadline.isExpired (d.act x).2.wire.clock = false →
          (∃ reply, (d.act x).1 = .ok reply ∧ reply.isFault = false) ∨
          wire.transport.ended = false ∧ (d.act x).2.wire.unread = [] ∧
            wire.unread.length < N) := by
  intro N body
  have hdrained : Drained N wire done x := drained_of_drawing ⟨rfl, rfl, hcalm⟩ h
  have hwithin := hdrained.within
  have hhere := prefix_take_of_append hdrained.unread (N := N) (by omega)
  refine ⟨hhere.1, hhere.2, hdrained.remaining, hdrained.complete, fun d => ?_⟩
  have hends := d.act_ends hdrained.readable
  generalize (d.act x).1 = r, (d.act x).2 = x' at hends ⊢
  cases hends with
  | @answered reply _ hanswers =>
    refine ⟨hdrained.further hanswers.takes, fun reply' hreply _ => ?_,
      fun _ => .inl ⟨reply, rfl, hanswers.proper⟩⟩
    cases hreply
    exact ⟨hanswers.size, hdrained.complete_of_empty hanswers,
      hdrained.whole_of_unlimited hanswers, hanswers.told⟩
  | failed hfault hfails =>
    obtain ⟨data, htakes, -⟩ := hfails.takes
    refine ⟨hdrained.further htakes, fun reply hreply hproper => ?_,
      fun hlive => .inr (hdrained.starved_of_fails hfails hlive)⟩
    rw [hfault reply hreply] at hproper
    cases hproper

/-- A body of five bytes in three chunks, of which the last brings two bytes of what follows.  It is
read by a count, by the byte and as plain input, and then the rest is asked for. -/
theorem body_of_drawing_upload :
    let head := (Head.new "POST" "/").withHeader "Content-Length" "5"
    let wire : Wire :=
      { transport := { incoming := [.bytes 0 [1, 2], .bytes 3 [3], .bytes 5 [4, 5, 6, 7]] } }
    ∃ x, wire.Calm ∧
      Drawing { context := .new wire.clock head 50 ⟨1⟩ ⟨1⟩, wire } [(.read (.bytes 1), .bytes [1]),
        (.read .byte, .byte (some 2)), (.read (.plain 10), .bytes [3])] x ∧
      x.wire.unread = [4, 5, 6, 7] ∧ x.context.remaining = 2 ∧
      ∃ reply, (Draw.body.act x).1 = .ok reply ∧ reply.data = [4, 5] := by
  intro head wire
  have hcalm : wire.Calm := by
    intro a ha
    simp only [wire, List.mem_cons, List.not_mem_nil, or_false] at ha
    rcases ha with rfl | rfl | rfl <;> trivial
  have hlength : head.contentLength = 5 := by
    have hname : Text.sameIgnoringCase "Content-Length" "content-length" = true := by
      rw [Text.sameIgnoringCase, beq_iff_eq, ← String.toList_inj, Text.lower, Text.lower,
        String.toList_map, String.toList_map]
      decide +kernel
    have hfind : ((Head.new "POST" "/").withHeader "Content-Length" "5").header?
        "content-length" = some "5" := by
      rw [Head.header?, Head.withHeader, Head.headers_new, List.nil_append, List.find?_singleton]
      exact congrArg _ (if_pos hname)
    have hvalue : ((some "5").bind fun v => Head.parseLength (Text.trim v)).getD 0 = 5 := by
      decide +kernel
    rw [Head.contentLength, hfind]
    exact hvalue
  let x₀ : Exchange :=
    { context := { Context.new wire.clock head 50 ⟨1⟩ ⟨1⟩ with remaining := 5 }, wire }
  let x₁ := (Act.reader x₀).2
  let x₂ := ((Draw.read (.bytes 1)).act x₁).2
  let x₃ := ((Draw.read .byte).act x₂).2
  let x₄ := ((Draw.read (.plain 10)).act x₃).2
  have hnew : ({ context := .new wire.clock head 50 ⟨1⟩ ⟨1⟩, wire } : Exchange) = x₀ := by
    rw [Context.new, hlength]
    rfl
  have h : Drawing { context := .new wire.clock head 50 ⟨1⟩ ⟨1⟩, wire }
      [(.read (.bytes 1), .bytes [1]), (.read .byte, .byte (some 2)),
        (.read (.plain 10), .bytes [3])] x₄ := by
    rw [hnew]
    have h₁ : Drawing x₀ [] x₁ := .reader .start
    have h₂ : Drawing x₀ ([] ++ [(.read (.bytes 1), .bytes [1])]) x₂ :=
      h₁.draw _ (by decide +kernel) rfl
    have h₃ : Drawing x₀ (_ ++ [(.read .byte, .byte (some 2))]) x₃ :=
      h₂.draw _ (by decide +kernel) rfl
    exact h₃.draw (.read (.plain 10)) (by decide +kernel) rfl
  obtain ⟨-, hunread, hremaining, -, hnext⟩ := body_of_drawing hcalm h
  obtain ⟨-, hanswer, hlive⟩ := hnext .body
  have hlive := hlive (by decide +kernel)
  rw [hlength] at hremaining hanswer hlive
  refine ⟨x₄, hcalm, h, hunread, hremaining, ?_⟩
  rcases hlive with ⟨reply, hreply, hproper⟩ | ⟨-, -, hshort⟩
  · have hbody := (hanswer reply hreply hproper).2.2.1 rfl
    exact ⟨reply, hreply, List.append_cancel_left hbody⟩
  · exact absurd hshort (by decide)

end Request

end ScriptHost
