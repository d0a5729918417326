import ScriptHost.Proofs.Stream.Reading
import ScriptHost.Stream.Link

/-!
# Wires call by call

A wire says when its bytes come and what becomes of a call that waits for them.  Here the answers of
a transport are found that lead there: a call that waits for something sits out a delay until it
comes, and one that waits in vain is told in the end that its time is over.

* `Link.writeAll_ofWire`, `Link.readFull_ofWire` — writing to a wire and reading from it are
  transfers in many calls, for some of the answers that a transport may give.
-/

set_option autoImplicit false

namespace ScriptHost.Link

variable {d : Deadline} {operation : String} {size : Nat} {l : Link}

/-- A wire as a transport that gives these answers. -/
def ofWire (w : Wire) (answers : List Answer) : Link :=
  { clock := w.clock, answers, unread := w.unread, accepted := w.transport.sent }

section Rounds

variable {a : Answer} {data : Bytes} {answers : List Answer}

theorem writeAllBy_nil : l.writeAllBy d operation [] answers =
    (some (l.flushed.mapError (.ofIoIn operation)), { l with answers }) := by
  cases answers <;> rfl

theorem writeAllBy_of_expired (hdata : data ≠ []) (hexpired : d.isExpired l.clock = true) :
    l.writeAllBy d operation data answers =
      (some (.error (.timeout operation)), { l with answers }) := by
  rw [writeAllBy.eq_def, if_neg (by simpa using hdata), if_pos hexpired]

theorem writeAllBy_of_live (hdata : data ≠ []) (hlive : ¬ d.isExpired l.clock = true) :
    l.writeAllBy d operation data (a :: answers) =
      let l := { l with clock := l.clock.pass a.delay }
      match a.reply operation with
      | .moved 0 => (some (.error (.ofIoIn operation IoKind.writeZero.fault)), { l with answers })
      | .moved n =>
        { l with accepted := l.accepted ++ data.take n }.writeAllBy d operation
          (data.drop n) answers
      | .again => l.writeAllBy d operation data answers
      | .failed f => (some (.error f), { l with answers }) := by
  have hdata : ¬ data.isEmpty = true := by simpa using hdata
  rw [writeAllBy.eq_def]
  exact (if_neg hdata).trans (if_neg hlive)

theorem readSomeBy_of_expired (hexpired : d.isExpired l.clock = true) :
    l.readSomeBy d operation size answers =
      (some (.error (.timeout operation)), { l with answers }) := by
  rw [readSomeBy.eq_def, if_pos hexpired]

theorem readSomeBy_of_live (hlive : ¬ d.isExpired l.clock = true) :
    l.readSomeBy d operation size (a :: answers) =
      let l := { l with clock := l.clock.pass a.delay }
      match a.reply operation with
      | .moved count => (some (.ok (l.unread.take (min count size))),
          { l with answers, unread := l.unread.drop (min count size) })
      | .again => l.readSomeBy d operation size answers
      | .failed f => (some (.error f), { l with answers }) := by
  rw [readSomeBy.eq_def]
  exact if_neg hlive

end Rounds

/-! ## Writing to a wire -/

theorem exists_writeAllBy (w : Wire) (answers : List WriteAnswer) (data : Bytes)
    (hrefused : ∀ e ∈ w.transport.refused, ¬ (e.kind.isDelay || e.kind = .interrupted) = true) :
    ∃ given, ∀ stale, (ofWire w stale).writeAllBy d operation data given =
      (some (w.sendBy d operation answers data).1,
        ofWire (w.sendBy d operation answers data).2 []) := by
  -- one answer for each round of the wire, and none where the deadline has passed
  fun_induction Wire.sendBy w d operation answers data with
  | case1 w answers => exact ⟨[], fun _ => rfl⟩
  | case2 w data hdata _ hexpired => exact ⟨[], fun _ => writeAllBy_of_expired hdata hexpired⟩
  | case3 w data hdata _ hlive e he =>
    refine ⟨[.fault 0 e], fun _ => ?_⟩
    rw [writeAllBy_of_live hdata hlive, Answer.reply, if_neg (hrefused e he)]
    rfl
  | case4 w data hdata _ hlive he =>
    refine ⟨[.moved 0 data.length], fun _ => ?_⟩
    obtain ⟨b, data, rfl⟩ := List.exists_cons_of_ne_nil hdata
    rw [writeAllBy_of_live hdata hlive]
    show writeAllBy _ _ _ ((b :: data).drop (b :: data).length) _ = _
    rw [List.drop_length, writeAllBy_nil, List.take_length]
    rfl
  | case5 w a answers data hdata hexpired =>
    exact ⟨[], fun _ => writeAllBy_of_expired hdata hexpired⟩
  | case6 w a answers data hdata hlive _ htaken =>
    refine ⟨[.moved a.delay 0], fun _ => ?_⟩
    rw [writeAllBy_of_live hdata hlive]
    rfl
  | case7 w a answers data hdata hlive w₁ n hn htaken ih =>
    obtain ⟨given, h⟩ := ih hrefused
    obtain ⟨n, rfl⟩ := Nat.exists_eq_succ_of_ne_zero hn
    refine ⟨.moved a.delay (n + 1) :: given, fun stale => ?_⟩
    rw [writeAllBy_of_live hdata hlive]
    exact h stale
  | case8 w a answers data hdata hlive w₁ e htaken hdelay ih =>
    obtain ⟨given, h⟩ := ih hrefused
    refine ⟨.fault a.delay e :: given, fun stale => ?_⟩
    rw [writeAllBy_of_live hdata hlive, Answer.reply, if_pos hdelay]
    exact h stale
  | case9 w a answers data hdata hlive w₁ e htaken hrefusal =>
    refine ⟨[.fault a.delay e], fun _ => ?_⟩
    rw [writeAllBy_of_live hdata hlive, Answer.reply, if_neg hrefusal]
    rfl

/-- **Writing to a wire** is writing to a transport that gives some such answers, if the wire, where
it refuses what is written, does not only put it off. -/
theorem writeAll_ofWire {w : Wire} (data : Bytes)
    (hrefused : ∀ e ∈ w.transport.refused, ¬ (e.kind.isDelay || e.kind = .interrupted) = true) :
    ∃ answers, (ofWire w answers).writeAll d operation data =
      (some (w.send d operation data).1, ofWire (w.send d operation data).2 []) := by
  obtain ⟨given, h⟩ := exists_writeAllBy w w.transport.outgoing data hrefused
  exact ⟨given, h given⟩

/-! ## Reading from a wire -/

theorem advanceTo_eq_pass (c : Clock) (instant : Nat) :
    c.advanceTo instant = c.pass (instant - c.now) := by
  have hmax : max c.now instant = c.now + (instant - c.now) := by omega
  rw [Clock.advanceTo, Clock.pass, hmax]

/-- A caller who is in time for something still has time when it comes. -/
theorem live_of_intime {c : Clock} {instant : Nat}
    (h : ¬ Wire.tooLate (d.expiry? c) c.now instant = true) :
    ¬ d.isExpired (c.advanceTo instant) = true := by
  rw [Deadline.isExpired_iff]
  rintro ⟨e, he, hle⟩
  have he : d.expiry? c = some e := he
  rw [he] at h
  exact h (decide_eq_true hle)

section Instants

variable {w w' : Wire} {instant : Nat} {e : IoFault}

/-- A delay lasts until some instant. -/
theorem readSomeBy_await (hdelay : (e.kind.isDelay || e.kind = .interrupted) = true)
    (hlive : ¬ d.isExpired w.clock = true) (stale answers : List Answer) :
    (ofWire w stale).readSomeBy d operation size (.fault (instant - w.clock.now) e :: answers) =
      (ofWire (w.await instant) stale).readSomeBy d operation size answers := by
  rw [readSomeBy_of_live hlive, Answer.reply, if_pos hdelay, Wire.await, advanceTo_eq_pass]
  rfl

/-- A failure comes at some instant. -/
theorem readSomeBy_refuse (hrefusal : ¬ (e.kind.isDelay || e.kind = .interrupted) = true)
    (hlive : ¬ d.isExpired w.clock = true) (hunread : w'.unread = w.unread)
    (hclock : w'.clock = w.clock.advanceTo instant) (hsent : w'.transport.sent = w.transport.sent)
    (stale rest : List Answer) :
    (ofWire w stale).readSomeBy d operation size (.fault (instant - w.clock.now) e :: rest) =
      (some (.error (.ofIoIn operation e)), ofWire w' rest) := by
  rw [advanceTo_eq_pass] at hclock
  rw [readSomeBy_of_live hlive, Answer.reply, if_neg hrefusal, ofWire, ofWire, hunread,
    hclock, hsent]
  rfl

/-- Bytes are given at some instant. -/
theorem readSomeBy_give {count : Nat} {data : Bytes} (hlive : ¬ d.isExpired w.clock = true)
    (hcount : min count size = data.length) (hunread : w.unread = data ++ w'.unread)
    (hclock : w'.clock = w.clock.advanceTo instant) (hsent : w'.transport.sent = w.transport.sent)
    (stale rest : List Answer) :
    (ofWire w stale).readSomeBy d operation size (.moved (instant - w.clock.now) count :: rest) =
      (some (.ok data), ofWire w' rest) := by
  have htake : w.unread.take (min count size) = data := by rw [hcount, hunread, List.take_left]
  have hdrop : w.unread.drop (min count size) = w'.unread := by
    rw [hcount, hunread, List.drop_left]
  have hdata : (some (.ok (w.unread.take (min count size))) : Option (Outcome Bytes)) =
      some (.ok data) := by
    rw [htake]
  rw [advanceTo_eq_pass] at hclock
  have hrest : { ofWire w stale with
      clock := w.clock.pass (instant - w.clock.now)
      answers := rest
      unread := w.unread.drop (min count size) } = ofWire w' rest := by
    rw [ofWire, ofWire, hdrop, hclock, hsent]
  exact (readSomeBy_of_live hlive).trans (Prod.ext hdata hrest)

/-- A call that nothing comes for is told in the end that its time is over. -/
theorem readSomeBy_expire {expiry : Nat} (he : d.expiry? w.clock = some expiry)
    (hlive : ¬ d.isExpired w.clock = true) (stale rest : List Answer) :
    (ofWire w stale).readSomeBy d operation size
        (.fault (expiry - w.clock.now) IoKind.timedOut.fault :: rest) =
      (some (w.expire d operation : Outcome Bytes × Wire).1,
        ofWire (w.expire d operation : Outcome Bytes × Wire).2 rest) := by
  have hexpired : d.isExpired (w.await expiry).clock = true :=
    Deadline.isExpired_iff.2 ⟨expiry, he, Nat.le_max_right ..⟩
  rw [readSomeBy_await rfl hlive, readSomeBy_of_expired hexpired, Wire.expire, he]
  rfl

theorem exists_readSomeBy_late (hlive : ¬ d.isExpired w.clock = true)
    (hlate : Wire.tooLate (d.expiry? w.clock) w.clock.now instant = true) :
    ∃ given, ∀ stale rest, (ofWire w stale).readSomeBy d operation size (given ++ rest) =
      (some (w.expire d operation : Outcome Bytes × Wire).1,
        ofWire (w.expire d operation : Outcome Bytes × Wire).2 rest) := by
  rw [Wire.tooLate.eq_def] at hlate
  split at hlate
  · rename_i expiry he
    exact ⟨[_], readSomeBy_expire he hlive⟩
  · cases hlate

end Instants

/-- Something ends a call that reads: it has what it asks for, or the stream has an end, or the
deadline passes at some time. -/
def Concludes (d : Deadline) (w : Wire) (r : Outcome Bytes) : Prop :=
  r.isOk = true ∨ w.transport.ended = true ∨ (d.expiry? w.clock).isSome = true

theorem exists_readSomeBy (w : Wire) (arrivals : List Arrival)
    (hlive : ¬ d.isExpired w.clock = true)
    (hends : Concludes d w (w.receiveFrom d operation size arrivals).1) :
    ∃ given, ∀ stale rest,
      (ofWire (w.expecting arrivals) stale).readSomeBy d operation size (given ++ rest) =
        (some (w.receiveFrom d operation size arrivals).1,
          ofWire (w.receiveFrom d operation size arrivals).2 rest) := by
  fun_induction Wire.receiveFrom w d operation size arrivals with
  | case1 w w₁ hended =>
    have hclock : w₁.clock = w₁.clock.advanceTo w.clock.now := by rw [Clock.advanceTo, Nat.max_self]
    exact ⟨[_], readSomeBy_give hlive (Nat.zero_min size) rfl hclock rfl⟩
  | case2 w w₁ hopen =>
    -- nothing will arrive any more, so it is the deadline that ends the call
    obtain hok | hended | hexpiry := hends
    · cases hok
    · exact absurd hended hopen
    · obtain ⟨e, he⟩ := Option.isSome_iff_exists.1 hexpiry
      exact ⟨[_], readSomeBy_expire (w := w₁) he hlive⟩
  | case3 w instant data arrivals hlate =>
    exact exists_readSomeBy_late (w := w.expecting (.bytes instant data :: arrivals)) hlive hlate
  | case4 w instant data arrivals hlate w₁ hempty ih =>
    obtain rfl : data = [] := List.isEmpty_iff.1 hempty
    obtain ⟨given, h⟩ := ih (live_of_intime hlate) hends
    let w₀ := w.expecting (.bytes instant [] :: arrivals)
    refine ⟨.fault (instant - w.clock.now) IoKind.interrupted.fault :: given, fun stale rest => ?_⟩
    exact (readSomeBy_await (w := w₀) rfl hlive ..).trans (h stale rest)
  | case5 w instant data arrivals hlate w₁ hdata left incoming =>
    have hcount : min data.length size = (data.take size).length := by
      rw [List.length_take, Nat.min_comm]
    have htook := (w.took_bytes instant data arrivals size).1
    exact ⟨[_], readSomeBy_give hlive hcount htook.unread rfl rfl⟩
  | case6 w instant e arrivals hlate =>
    exact exists_readSomeBy_late (w := w.expecting (.trouble instant e :: arrivals)) hlive hlate
  | case7 w instant e arrivals hlate w₁ hdelay ih =>
    obtain ⟨given, h⟩ := ih (live_of_intime hlate) hends
    let w₀ := w.expecting (.trouble instant e :: arrivals)
    refine ⟨.fault (instant - w.clock.now) e :: given, fun stale rest => ?_⟩
    exact (readSomeBy_await (w := w₀) hdelay hlive ..).trans (h stale rest)
  | case8 w instant e arrivals hlate w₁ hrefusal =>
    let w₀ := w.expecting (.trouble instant e :: arrivals)
    exact ⟨[_], readSomeBy_refuse (w := w₀) hrefusal hlive rfl rfl rfl⟩

theorem exists_readSome (operation : String) {w : Wire} (hsize : size ≠ 0)
    (hends : Concludes d w (w.receive d operation size).1) :
    ∃ given, ∀ rest, (ofWire w (given ++ rest)).readSome d operation size =
      (some (w.receive d operation size).1, ofWire (w.receive d operation size).2 rest) := by
  rw [Wire.receive] at hends ⊢
  split
  · rename_i hexpired
    exact ⟨[], fun rest => readSomeBy_of_expired hexpired⟩
  · rename_i hlive
    rw [if_neg hlive, if_neg hsize] at hends
    obtain ⟨given, h⟩ := exists_readSomeBy w w.transport.incoming hlive hends
    exact ⟨given, fun rest => h (given ++ rest) rest⟩

theorem readMore_zero (l : Link) (got : Bytes) :
    l.readMore d operation 0 got = (some (.ok got), l) := by
  rw [readMore, if_pos rfl]

theorem exists_readMore (fuel missing : Nat) (got : Bytes) (w : Wire) (hfuel : missing ≤ fuel)
    (hends : Concludes d w (Io.readMore d operation fuel missing got w).1) :
    ∃ given, ∀ rest, (ofWire w (given ++ rest)).readMore d operation missing got =
      (some (Io.readMore d operation fuel missing got w).1,
        ofWire (Io.readMore d operation fuel missing got w).2 rest) := by
  induction fuel generalizing missing got w with
  | zero =>
    obtain rfl := Nat.le_zero.1 hfuel
    exact ⟨[], fun rest => readMore_zero ..⟩
  | succ fuel ih =>
    cases missing with
    | zero => exact ⟨[], fun rest => readMore_zero ..⟩
    | succ missing =>
      have hmissing : missing + 1 ≠ 0 := Nat.succ_ne_zero missing
      rw [Io.readMore_succ, Io.bind_apply, Io.readSome] at hends ⊢
      rcases hr : w.receive d operation (missing + 1) with ⟨e | chunk, w₁⟩
      · rw [hr] at hends
        obtain ⟨given, h⟩ := exists_readSome operation hmissing (by rwa [hr])
        refine ⟨given, fun rest => ?_⟩
        rw [readMore, if_neg hmissing, h, hr]
      · have hchunk : Concludes d w (.ok chunk) := .inl rfl
        obtain ⟨given, h⟩ := exists_readSome operation hmissing (by rwa [hr])
        simp only [hr] at hends h ⊢
        by_cases hnil : chunk = []
        · subst hnil
          refine ⟨given, fun rest => ?_⟩
          rw [readMore, if_neg hmissing, h]
          rfl
        · have hpos : 0 < chunk.length := List.length_pos_iff.2 hnil
          have htook := (Wire.receive_spec (Nat.pos_of_ne_zero hmissing) hr).took
          rw [if_neg (by simpa using hnil)] at hends ⊢
          have hlater : Concludes d w₁ _ := hends.imp_right
            (Or.imp htook.ended.trans fun h => by rwa [Deadline.expiry?_congr htook.cancellations])
          obtain ⟨more, hmore⟩ :=
            ih (missing + 1 - chunk.length) (got ++ chunk) w₁ (by omega) hlater
          refine ⟨given ++ more, fun rest => ?_⟩
          rw [readMore, if_neg hmissing, List.append_assoc, h]
          simp only [if_neg hnil]
          exact hmore rest

/-- **Reading from a wire** is reading from a transport that gives some such answers, if anything
ends the call. -/
theorem readFull_ofWire {w : Wire} (hends : Concludes d w (Io.readFull d operation size w).1) :
    ∃ answers, (ofWire w answers).readFull d operation size =
      (some (Io.readFull d operation size w).1, ofWire (Io.readFull d operation size w).2 []) := by
  obtain ⟨given, h⟩ := exists_readMore size size [] w (Nat.le_refl _) hends
  exact ⟨given ++ [], h []⟩

end ScriptHost.Link
