import ScriptHost.Proofs.WebSocket.Read

/-!
# Reads that time out

A read that times out has taken bytes off the stream that it does not give back: a part of a frame,
whole frames of a message that is not complete, or a frame that it could not answer in time.  This
file says exactly when that is harmless (`timeout_harmless_iff`).

* `Pending` — where a read stands when it times out, as a fact about the bytes that it has taken and
  nothing else (`readLoop_timeout`).
* `outcomes_expecting_nil` — a read that has taken nothing makes no difference to later ones.
* `Pending.noticed` — one that has taken something does: in each place where it can stand there are
  bytes that would have been read in one way and are now read in another.
-/

set_option autoImplicit false

namespace ScriptHost.WebSocket

/-! ## Where a read stands -/

/-- Where a read stands that began with the given fragments, has taken these bytes and timed out:
within a frame, or before the answer to one.  The last argument says whether it has closed the
socket. -/
inductive Pending : Option Message → Bytes → Bool → Prop
  | frame {fragments : Option Message} {c : Bytes} :
      Frame.reader.feed c = none → Pending fragments c false
  | more {fragments : Option Message} {c rest : Bytes} {f : Frame} {m : Message} {closed : Bool} :
      Frame.reader.feed c = some (.ok f, rest) → f.heard fragments = .ok (.fragments m) →
      Pending (some m) rest closed → Pending fragments c closed
  | ping {fragments : Option Message} {c : Bytes} {f : Frame} {data : Bytes} :
      Frame.reader.feed c = some (.ok f, []) → f.heard fragments = .ok (.control ⟨.ping, data⟩) →
      Pending fragments c false
  | close {fragments : Option Message} {c : Bytes} {f : Frame} {data : Bytes} :
      Frame.reader.feed c = some (.ok f, []) → f.heard fragments = .ok (.control ⟨.close, data⟩) →
      Pending fragments c true

/-- **Where a read stands when it times out**, by induction on its rounds.  If it has taken nothing
it has done nothing. -/
theorem readLoop_timeout {d : Deadline} {fuel : Nat} {fragments : Option Message}
    {s s' : WebSocket} {w w' : Wire} {operation : String} (hopen : s.closeReceived = false)
    (hfuel : w.unread.length < fuel)
    (h : readLoop d fuel fragments (s, w) = (.error (.timeout operation), (s', w'))) :
    ∃ c, w.unread = c ++ w'.unread ∧ Pending fragments c s'.closeReceived ∧
      (c = [] → s' = s ∧ w.Took [] w') := by
  induction fuel generalizing fragments w with
  | zero => exact absurd hfuel (Nat.not_lt_zero _)
  | succ fuel ih =>
    rw [readLoop_succ, readFrame_eq] at h
    rcases hrun : Frame.reader.run d readOperation w with ⟨r, w₁⟩
    rw [hrun] at h
    cases Reader.run_spec hrun with
    | @broken c e w₁ ht hfeed hdrained =>
      -- it times out within a frame
      cases h
      exact ⟨c, ht.unread, by rw [hopen]; exact .frame hfeed, fun hc => ⟨rfl, hc ▸ ht⟩⟩
    | @done c r w₁ ht hfeed hle =>
      obtain ⟨hlen, ⟨message, rfl⟩ | ⟨f, rfl, -⟩⟩ := Frame.feed_spec hfeed
      · cases h
      · have hne (more : Bytes) (hnil : c ++ more = []) : s' = s ∧ w.Took [] w' := by
          rw [List.append_eq_nil_iff.1 hnil |>.1] at hlen
          exact absurd hlen (by decide)
        have hears := heard_spec f fragments
        simp only at h
        rcases hheard : f.heard fragments with e | ⟨m | m | m⟩
        · rw [hheard] at h hears
          cases h
          cases hears with
          | refused hne => exact absurd rfl (hne operation)
        · rw [hheard] at h
          cases h
        · -- it times out while it answers a ping or a close
          rw [hheard] at h
          simp only at h
          rcases hans : answer m.kind m.data (s, w₁) with ⟨r, s₂, w₂⟩
          rw [hans] at h
          have ha := answer_spec hans
          cases ha with
          | ok => cases h
          | failed hin _ hkind =>
            cases h
            have hunread : w'.unread = w₁.unread := congrArg (List.flatMap Arrival.data) hin
            refine ⟨c, by rw [hunread, ht.unread], ?_, fun hc => hne [] (by rw [hc]; rfl)⟩
            obtain ⟨kind, data⟩ := m
            obtain ⟨rfl, rfl⟩ | ⟨rfl, hclosed⟩ := hkind
            · rw [hopen]
              exact .ping hfeed hheard
            · rw [hclosed]
              exact .close hfeed hheard
        · rw [hheard] at h
          have hfuel' : w₁.unread.length < fuel := by
            rw [ht.unread, List.length_append] at hfuel
            rw [List.length_nil] at hlen
            omega
          obtain ⟨c₂, hunread, hpending, -⟩ := ih hfuel' h
          refine ⟨c ++ c₂, ?_, .more (Reader.feed_append hfeed c₂) hheard hpending, hne c₂⟩
          rw [ht.unread, hunread, List.append_assoc]

/-! ## Nothing taken -/

/-- Bytes that are there already but of which there are none make no difference to a call that
reads. -/
theorem receiveFrom_expecting (arrivals arrivals' : List Arrival) (w : Wire) (d : Deadline)
    (operation : String) (size : Nat) :
    (w.expecting arrivals').receiveFrom d operation size arrivals =
      w.receiveFrom d operation size arrivals := by
  induction arrivals generalizing w with
  | nil => rfl
  | cons a rest ih =>
    cases a with
    | bytes instant data =>
      rw [Wire.receiveFrom, Wire.receiveFrom]
      exact if_congr Iff.rfl rfl (if_congr Iff.rfl (ih (w.await instant)) rfl)
    | trouble instant e =>
      rw [Wire.receiveFrom, Wire.receiveFrom]
      exact if_congr Iff.rfl rfl (if_congr Iff.rfl (ih (w.await instant)) rfl)

/-- A call that reads passes over an arrival of no bytes, unless its deadline has expired. -/
theorem receive_expecting_nil (w : Wire) {d : Deadline} (hd : d.isExpired w.clock = false)
    {instant : Nat} (hle : instant ≤ w.clock.now) (later : List Arrival) (operation : String)
    {size : Nat} (hsize : 0 < size) :
    (w.expecting (.bytes instant [] :: later)).receive d operation size =
      (w.expecting later).receive d operation size := by
  have hlate : Wire.tooLate (d.expiry? w.clock) w.clock.now instant = false := by
    rw [Wire.tooLate.eq_def]
    split
    · rename_i e he
      rw [decide_eq_false_iff_not, Nat.max_eq_left hle]
      intro hexp
      have := Deadline.isExpired_iff.2 ⟨e, he, hexp⟩
      rw [hd] at this
      cases this
    · rfl
  have hawait : w.await instant = w := by
    rw [Wire.await, Clock.advanceTo, Nat.max_eq_left hle]
  have hskip : (w.expecting (.bytes instant [] :: later)).receiveFrom d operation size
      (.bytes instant [] :: later) = (w.await instant).receiveFrom d operation size later := by
    rw [receiveFrom_expecting, Wire.receiveFrom, hlate]
    rfl
  have hlive (arrivals : List Arrival) : ¬d.isExpired (w.expecting arrivals).clock = true := by
    show ¬d.isExpired w.clock = true
    rw [hd]
    exact Bool.false_ne_true
  rw [Wire.receive, Wire.receive, if_neg (hlive _), if_neg (hlive _), if_neg (Nat.ne_of_gt hsize),
    if_neg (Nat.ne_of_gt hsize)]
  show (w.expecting (.bytes instant [] :: later)).receiveFrom d operation size
    (.bytes instant [] :: later) = (w.expecting later).receiveFrom d operation size later
  rw [hskip, hawait, receiveFrom_expecting]

/-- How a frame is read depends on the wire only through the two bytes of its head. -/
theorem readFrame_congr {d : Deadline} {w w' : Wire}
    (h : w.receive d readOperation 2 = w'.receive d readOperation 2) :
    readFrame d w = readFrame d w' := by
  have hfull : Io.readFull d readOperation 2 w = Io.readFull d readOperation 2 w' := by
    rw [Io.readFull, Io.readMore_succ, Io.bind_apply, Io.bind_apply, Io.readSome, h]
    rfl
  rw [readFrame_eq, Frame.reader, Reader.run_bind, Frame.headReader, Reader.run, Io.bind_apply,
    Io.bind_apply, Io.bind_apply, Io.bind_apply, hfull]

theorem readFrame_of_expired {d : Deadline} (w : Wire) (h : d.isExpired w.clock = true) :
    readFrame d w = (.error (.timeout readOperation), w) := by
  rw [readFrame_eq, Frame.reader, Reader.run_bind, Frame.headReader, Reader.run, Io.bind_apply,
    Io.bind_apply, Io.readFull, Io.readMore_succ, Io.bind_apply, Io.readSome, Wire.receive,
    if_pos h]

/-- **A read that has taken nothing makes no difference to later ones**: that its place in the
stream has been looked at is all that there is left of it. -/
theorem outcomes_expecting_nil (ds : List Deadline) (s : WebSocket) (w : Wire) {instant : Nat}
    (hle : instant ≤ w.clock.now) (later : List Arrival) :
    outcomes ds (s, w.expecting (.bytes instant [] :: later)) =
      outcomes ds (s, w.expecting later) := by
  induction ds with
  | nil => rfl
  | cons d ds ih =>
    rw [outcomes, outcomes, read_eq, read_eq]
    rcases hclosed : s.closeReceived with _ | _
    · rw [if_neg Bool.false_ne_true, if_neg Bool.false_ne_true,
        show (w.expecting (.bytes instant [] :: later)).unread = (w.expecting later).unread by
          rw [Wire.unread_expecting, Wire.unread_expecting, List.flatMap_cons]; rfl,
        readLoop_succ, readLoop_succ]
      rcases hd : d.isExpired w.clock with _ | _
      · rw [readFrame_congr (receive_expecting_nil w hd hle later readOperation (by decide))]
      · rw [readFrame_of_expired (w.expecting (.bytes instant [] :: later)) hd,
          readFrame_of_expired (w.expecting later) hd, ih]
    · rw [if_pos rfl, if_pos rfl, ih]

/-! ## Something taken -/

/-- One round of a read that waits forever, on a calm wire. -/
theorem readLoop_calm (fragments : Option Message) (s : WebSocket) {w : Wire} (fuel : Nat)
    (hcalm : w.Calm) :
    match Frame.reader.feed w.unread with
    | none => ∃ e, (readLoop .never (fuel + 1) fragments (s, w)).1 = .error e
    | some (.error e, _) => (readLoop .never (fuel + 1) fragments (s, w)).1 = .error e
    | some (.ok f, rest) => ∃ w', w'.Calm ∧ w'.unread = rest ∧
        readLoop .never (fuel + 1) fragments (s, w) =
          match f.heard fragments with
          | .error e => (.error e, (s, w'))
          | .ok (.message m) => (.ok m, (s, w'))
          | .ok (.fragments m) => readLoop .never fuel (some m) (s, w')
          | .ok (.control m) =>
            match answer m.kind m.data (s, w') with
            | (.ok (), σ) => (.ok m, σ)
            | (.error e, σ) => (.error e, σ) := by
  have hrun := Frame.reader.run_of_calm readOperation hcalm (.inl (Deadline.never_outlasts w))
  rw [readLoop_succ, readFrame_eq]
  rcases hfeed : Frame.reader.feed w.unread with _ | ⟨e | f, rest⟩
  · rw [hfeed] at hrun
    obtain ⟨e, c, w', hr, -⟩ := hrun
    exact ⟨e, by rw [hr]⟩
  · rw [hfeed] at hrun
    obtain ⟨c, w', hr, -⟩ := hrun
    simp only [hr]
  · rw [hfeed] at hrun
    obtain ⟨c, w', hr, ht, hrest, -⟩ := hrun
    exact ⟨w', ht.calm hcalm, hrest, hr ▸ rfl⟩

theorem data_control {f : Frame} {fragments : Option Message} {m : Message}
    (h : f.heard fragments = .ok (.control m)) : m.data = f.payload := by
  have hears := heard_spec f fragments
  rw [h] at hears
  cases hears
  rfl

/-- A pong of a payload of so many bytes. -/
def pongOf (n : Nat) : Bytes := writeFrame true Kind.pong.opcode (List.replicate n 0xff) none

/-- What is left of such a pong once its head has been taken apart is not a frame. -/
theorem feed_drop_pongOf {n k : Nat} (hn : n ≤ 1) (hk : 0 < k) :
    Frame.reader.feed ((pongOf n).drop k) = none := by
  have hshort {bytes : Bytes} (h : bytes.length < 2) : Frame.reader.feed bytes = none := by
    rcases hf : Frame.reader.feed bytes with _ | ⟨r, rest⟩
    · rfl
    · have hlen := (Frame.feed_spec hf).1
      omega
  obtain rfl | rfl : n = 0 ∨ n = 1 := by omega
  · refine hshort ?_
    rw [List.length_drop, show (pongOf 0).length = 2 from rfl]
    omega
  · by_cases hone : k = 1
    · subst hone
      rfl
    · refine hshort ?_
      rw [List.length_drop, show (pongOf 1).length = 3 from rfl]
      omega

/-- The bytes `z` tell a read that begins with nothing from one that has fragments and first reads
what `c` was: the one returns `a`, the other something else. -/
structure Tells (fragments : Option Message) (c z : Bytes) (closed : Bool) (a : Outcome Message) :
    Prop where
  fresh : if closed then a = .error (.illegalState "websocket is closed")
    else ∀ (s : WebSocket) (w : Wire) (fuel : Nat), w.Calm → w.unread = z →
      (readLoop .never (fuel + 1) none (s, w)).1 = a
  other : ∀ (s : WebSocket) (w : Wire) (fuel : Nat), w.Calm → w.unread = c ++ z →
    w.unread.length < fuel → (readLoop .never fuel fragments (s, w)).1 ≠ a

/-- A pong on its own is returned. -/
theorem readLoop_pongOf {n : Nat} (hn : n ≤ 1) (s : WebSocket) {w : Wire} (fuel : Nat)
    (hcalm : w.Calm) (hunread : w.unread = pongOf n) :
    (readLoop .never (fuel + 1) none (s, w)).1 = .ok ⟨.pong, List.replicate n 0xff⟩ := by
  have hmax : (List.replicate n (0xff : UInt8)).length ≤ maxMessage := by
    rw [List.length_replicate]
    exact Nat.le_trans hn (by decide)
  have hfeed := Frame.feed_writeFrame true (by decide : Kind.pong.opcode < 16) hmax none []
  have hloop := readLoop_calm none s fuel hcalm
  rw [List.append_nil] at hfeed
  rw [hunread, pongOf, hfeed] at hloop
  obtain ⟨w', -, -, hr⟩ := hloop
  rw [hr]
  rfl

/-- Bytes that complete a frame reach into what stands behind them. -/
theorem rest_of_feed {c z rest : Bytes} {r : Outcome Frame} (hnone : Frame.reader.feed c = none)
    (hf : Frame.reader.feed (c ++ z) = some (r, rest)) : ∃ k, 0 < k ∧ rest = z.drop k := by
  obtain ⟨c₁, happ, hc₁⟩ := Reader.eq_append_of_feed hf
  rcases List.append_eq_append_iff.1 happ with ⟨a, hc₁', rfl⟩ | ⟨b, rfl, -⟩
  · refine ⟨a.length, List.length_pos_iff.2 ?_, List.drop_left.symm⟩
    rintro rfl
    rw [hc₁', List.append_nil, hnone] at hc₁
    cases hc₁
  · rw [Reader.feed_append hc₁] at hnone
    cases hnone

/-- **Within a frame**: a pong is taken for the rest of the frame, and whatever that makes, it is
not this pong, whose length is not the one that the frame has announced. -/
theorem tells_of_frame {fragments : Option Message} (hplain : Plain fragments) {c : Bytes}
    (hne : c ≠ []) (hfeed : Frame.reader.feed c = none) : ∃ z a, Tells fragments c z false a := by
  obtain ⟨n, hn, hlen⟩ : ∃ n ≤ 1, ∀ f rest,
      Frame.reader.feed (c ++ pongOf n) = some (.ok f, rest) → f.payload.length ≠ n := by
    -- no length may have been announced yet; otherwise the pong is given another one
    rcases hann : Frame.announced? c with _ | l
    · refine ⟨0, Nat.zero_le _, fun f rest hf hzero => ?_⟩
      obtain ⟨-, ⟨message, he⟩ | ⟨f', hok, hann', -⟩⟩ := Frame.feed_spec hf
      · cases he
      · cases hok
        have hlt := Frame.length_lt_of_announced? hne hann hann'
        omega
    · refine ⟨if l = 0 then 1 else 0, by split <;> omega, fun f rest hf heq => ?_⟩
      obtain ⟨-, ⟨message, he⟩ | ⟨f', hok, hann', -⟩⟩ := Frame.feed_spec hf
      · cases he
      · cases hok
        rw [Frame.announced?_append hann] at hann'
        have hl := Option.some_inj.1 hann'
        split at heq <;> omega
  refine ⟨pongOf n, .ok ⟨.pong, List.replicate n 0xff⟩,
    fun s w fuel hcalm hunread => readLoop_pongOf hn s fuel hcalm hunread, ?_⟩
  -- a read that begins within the frame cannot come to the same message
  intro s w fuel hcalm hunread hfuel heq
  obtain ⟨fuel, rfl⟩ : ∃ k, fuel = k + 1 := ⟨fuel - 1, by omega⟩
  have hloop := readLoop_calm fragments s fuel hcalm
  rw [hunread] at hloop
  rcases hf : Frame.reader.feed (c ++ pongOf n) with _ | ⟨e | f, rest⟩
  · rw [hf] at hloop
    obtain ⟨e, he⟩ := hloop
    rw [he] at heq
    cases heq
  · rw [hf] at hloop
    rw [hloop] at heq
    cases heq
  · rw [hf] at hloop
    obtain ⟨w', hcalm', hrest, hr⟩ := hloop
    rw [hr] at heq
    rcases hheard : f.heard fragments with e | ⟨m | m | m⟩
    · rw [hheard] at heq
      cases heq
    · rw [hheard] at heq
      cases heq
      exact Bool.noConfusion (plain_message hplain hheard)
    · rw [hheard] at heq
      simp only at heq
      rcases hans : answer m.kind m.data (s, w') with ⟨e | u, σ⟩
      · rw [hans] at heq
        cases heq
      · rw [hans] at heq
        cases heq
        refine hlen f rest hf ?_
        rw [← data_control hheard, List.length_replicate]
    · -- the frame was not the last of its message, and there is no other
      rw [hheard] at heq
      obtain ⟨k, hk, hdrop⟩ := rest_of_feed hfeed hf
      cases fuel with
      | zero => cases heq
      | succ fuel =>
        have hloop' := readLoop_calm (some m) s fuel hcalm'
        rw [hrest, hdrop, feed_drop_pongOf hn hk] at hloop'
        obtain ⟨e, he⟩ := hloop'
        simp only [he] at heq
        cases heq

/-- **Between frames**: the end of the message is not expected by a read that has no fragments. -/
theorem tells_of_fragments (m : Message) : ∃ z a, Tells (some m) [] z false a := by
  have hfeed := Frame.feed_writeFrame true (by decide : 0 < 16)
    (show ([] : Bytes).length ≤ maxMessage from Nat.zero_le _) none []
  rw [List.append_nil] at hfeed
  refine ⟨writeFrame true 0 [] none, .error (.illegalState "continuation frame without a message"),
    fun s w fuel hcalm hunread => ?_, fun s w fuel hcalm hunread hfuel heq => ?_⟩
  · have hloop := readLoop_calm none s fuel hcalm
    rw [hunread, hfeed] at hloop
    obtain ⟨w', -, -, hr⟩ := hloop
    rw [hr]
    rfl
  · obtain ⟨fuel, rfl⟩ : ∃ k, fuel = k + 1 := ⟨fuel - 1, by omega⟩
    have hloop := readLoop_calm (some m) s fuel hcalm
    rw [hunread, List.nil_append, hfeed] at hloop
    obtain ⟨w', -, -, hr⟩ := hloop
    have hheard :
        Frame.heard ⟨true, 0, []⟩ (some m) = .error (.exhausted "websocket message too large") ∨
        Frame.heard ⟨true, 0, []⟩ (some m) = .ok (.message { m with data := m.data ++ [] }) := by
      rw [Frame.heard.eq_def, if_pos rfl]
      simp only
      split
      · exact .inl rfl
      · exact .inr rfl
    rw [hr] at heq
    obtain hh | hh := hheard <;> rw [hh] at heq <;> cases heq

/-- **A control frame that could not be answered** is not found again: not a ping, and after a close
nothing is. -/
theorem tells_of_control {fragments : Option Message} {c : Bytes} {f : Frame} {kind : Kind}
    {data : Bytes} (hkind : kind ≠ .pong) (hfeed : Frame.reader.feed c = some (.ok f, []))
    (hheard : f.heard fragments = .ok (.control ⟨kind, data⟩)) (closed : Bool) :
    ∃ z a, Tells fragments c z closed a := by
  have other (a : Outcome Message) (hok : a ≠ .ok ⟨kind, data⟩)
      (herror : ∀ e, a = .error e → ∃ message, e = .illegalState message) (s : WebSocket) (w : Wire)
      (fuel : Nat) (hcalm : w.Calm) (hunread : w.unread = c ++ pongOf 0)
      (hfuel : w.unread.length < fuel) : (readLoop .never fuel fragments (s, w)).1 ≠ a := by
    rintro rfl
    obtain ⟨fuel, rfl⟩ : ∃ k, fuel = k + 1 := ⟨fuel - 1, by omega⟩
    have hloop := readLoop_calm fragments s fuel hcalm
    rw [hunread, Reader.feed_append hfeed] at hloop
    obtain ⟨w', -, -, hr⟩ := hloop
    rw [hr, hheard] at hok herror
    simp only at hok herror
    rcases hans : answer kind data (s, w') with ⟨r, s₂, w₂⟩
    rw [hans] at hok herror
    cases answer_spec hans with
    | ok => exact hok rfl
    | failed _ hne =>
      obtain ⟨message, he⟩ := herror _ rfl
      exact hne message he
  cases closed with
  | true =>
    refine ⟨pongOf 0, .error (.illegalState "websocket is closed"), rfl, other _ nofun ?_⟩
    rintro e ⟨⟩
    exact ⟨_, rfl⟩
  | false =>
    refine ⟨pongOf 0, .ok ⟨.pong, []⟩, fun s w fuel hcalm hunread =>
      readLoop_pongOf (Nat.zero_le _) s fuel hcalm hunread, other _ ?_ (fun e he => by cases he)⟩
    rintro ⟨⟩
    exact hkind rfl

/-- **Wherever a read stands, it has left something behind** for later ones to notice, by induction
on the frames that it has taken. -/
theorem Pending.noticed {fragments : Option Message} {c : Bytes} {closed : Bool}
    (h : Pending fragments c closed) (hplain : Plain fragments) (hne : c ≠ [] ∨ fragments ≠ none) :
    ∃ z a, Tells fragments c z closed a := by
  induction h with
  | @frame fragments c hfeed =>
    by_cases hc : c = []
    · subst hc
      rcases fragments with _ | m
      · exact absurd rfl (hne.resolve_left fun h => h rfl)
      · exact tells_of_fragments m
    · exact tells_of_frame hplain hc hfeed
  | @more fragments c rest f m closed hfeed hheard _ ih =>
    obtain ⟨z, a, htells⟩ := ih (plain_fragments hplain hheard) (.inr (Option.some_ne_none m))
    refine ⟨z, a, htells.fresh, fun s w fuel hcalm hunread hfuel => ?_⟩
    obtain ⟨fuel, rfl⟩ : ∃ k, fuel = k + 1 := ⟨fuel - 1, by omega⟩
    have hloop := readLoop_calm fragments s fuel hcalm
    rw [hunread, Reader.feed_append hfeed] at hloop
    obtain ⟨w', hcalm', hrest, hr⟩ := hloop
    have hlen := (Frame.feed_spec hfeed).1
    rw [hr, hheard]
    refine htells.other s w' fuel hcalm' hrest ?_
    rw [hunread, List.length_append] at hfuel
    rw [hrest, List.length_append]
    omega
  | ping hfeed hheard => exact tells_of_control (by decide) hfeed hheard false
  | close hfeed hheard => exact tells_of_control (by decide) hfeed hheard true

/-! ## The timed-out read -/

/-- The wire at a later time, had these bytes been left on it, with others still to come. -/
def leaving (w : Wire) (clock : Clock) (c : Bytes) (later : List Arrival) : Wire :=
  Wire.expecting { w with clock } (.bytes clock.now c :: later)

theorem calm_bytes {w : Wire} {arrivals : List Arrival}
    (h : ∀ a ∈ arrivals, ∃ n b, a = .bytes n b) : (w.expecting arrivals).Calm := fun a ha => by
  obtain ⟨n, b, rfl⟩ := h a ha
  trivial

/-- **When a timeout is harmless.**  A read that times out has taken some bytes off the stream.
Whatever the peer sends afterwards, at whatever time, all later reads return what they would have
returned if those bytes had been left where they were, if and only if there are none. -/
theorem timeout_harmless_iff {d : Deadline} {operation : String} {s s' : WebSocket} {w w' : Wire}
    (h : read d (s, w) = (.error (.timeout operation), (s', w'))) :
    ∃ c, w.unread = c ++ w'.unread ∧
      ((∀ ds later, outcomes ds (s', w'.expecting later) =
        outcomes ds (s, leaving w w'.clock c later)) ↔ c = []) := by
  rw [read_eq] at h
  split at h
  · cases h
  · rename_i hopen
    have hopen : s.closeReceived = false := by simpa using hopen
    obtain ⟨c, hunread, hpending, hnil⟩ := readLoop_timeout hopen (Nat.lt_succ_self _) h
    refine ⟨c, hunread, fun hall => ?_, ?_⟩
    · by_contra hne
      obtain ⟨z, a, htells⟩ := hpending.noticed (fun m hm => by cases hm) (.inl hne)
      have hcalm : (leaving w w'.clock c [.bytes 0 z]).Calm := calm_bytes (by simp)
      have hbytes : (leaving w w'.clock c [.bytes 0 z]).unread = c ++ z := by
        rw [leaving, Wire.unread_expecting]
        simp [Arrival.data]
      have hother := htells.other s _ _ hcalm hbytes (Nat.lt_succ_self _)
      have hread := (List.cons.inj (hall [.never] [.bytes 0 z])).1
      rw [read_eq, read_eq, hopen, if_neg Bool.false_ne_true] at hread
      rw [← hread] at hother
      have hfresh := htells.fresh
      split at hfresh
      · rename_i hclosed
        rw [hclosed, if_pos rfl, hfresh] at hother
        exact hother rfl
      · rename_i hclosed
        rw [if_neg hclosed] at hother
        refine hother (hfresh s' _ _ (calm_bytes (by simp)) ?_)
        rw [Wire.unread_expecting]
        simp [Arrival.data]
    · rintro rfl ds later
      obtain ⟨rfl, ht⟩ := hnil rfl
      rw [leaving, outcomes_expecting_nil ds s' _ (Nat.le_refl _), Wire.expecting, Wire.expecting,
        ht.others]

/-- A timeout before the first byte of a greeting is harmless. -/
theorem timeout_before_greeting :
    let s : WebSocket := { writeDeadline := .never }
    let w : Wire := { clock := { now := 10 } }
    read (.atInstant 10) (s, {}) = (.error (.timeout readOperation), (s, w)) ∧
      ∀ ds later,
        outcomes ds (s, w.expecting later) = outcomes ds (s, leaving {} w.clock [] later) := by
  intro s w
  have hread : read (.atInstant 10) (s, {}) = (.error (.timeout readOperation), (s, w)) := rfl
  obtain ⟨c, hunread, hiff⟩ := timeout_harmless_iff hread
  obtain rfl : c = [] := (List.append_eq_nil_iff.1 hunread.symm).1
  exact ⟨hread, hiff.2 rfl⟩

/-- A timeout between the two pieces of a greeting loses the first one. -/
theorem timeout_within_greeting :
    let s : WebSocket := { writeDeadline := .never }
    let w : Wire := { transport := {
      incoming := [.bytes 0 (writeFrame false Kind.text.opcode [104, 101, 108] none)] } }
    let later : List Arrival := [.bytes 20 (writeFrame true 0 [108, 111] none)]
    let timedOut := read (.atInstant 10) (s, w)
    timedOut.1 = .error (.timeout readOperation) ∧
      outcomes [.never] (s, leaving w timedOut.2.2.clock w.unread later) =
        [.ok ⟨.text, [104, 101, 108, 108, 111]⟩] ∧
      outcomes [.never] (timedOut.2.1, timedOut.2.2.expecting later) =
        [.error (.illegalState "continuation frame without a message")] :=
  ⟨rfl, rfl, rfl⟩

end ScriptHost.WebSocket
