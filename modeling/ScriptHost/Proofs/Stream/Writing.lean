import ScriptHost.Proofs.Stream.Reading

/-!
# Writing to a wire

A transport may take what is written in parts, and may keep a writer waiting; it may also refuse.
Whatever it does, what is incoming stays as it is (`Wire.incoming_send`).  A transport that does not
refuse takes all of it before any deadline that permits it (`Wire.send_of_taking`), and the
in-memory one takes all of it or nothing (`Wire.transport_send`).
-/

set_option autoImplicit false

namespace ScriptHost

/-- An answer to a write that takes something or only delays. -/
def WriteAnswer.Working (a : WriteAnswer) : Prop :=
  match a.taken with
  | .ok n => 0 < n
  | .error e => (e.kind.isDelay || e.kind = .interrupted) = true

namespace Wire

/-- The wire with other answers to writes. -/
def answering (w : Wire) (answers : List WriteAnswer) : Wire :=
  { w with transport := { w.transport with outgoing := answers } }

/-- The wire takes what is written. -/
structure Taking (w : Wire) : Prop where
  working : ∀ a ∈ w.transport.outgoing, a.Working
  open_ : w.transport.refused = none

theorem Took.taking {w w' : Wire} {c : Bytes} (h : Took w c w') (hw : w.Taking) : w'.Taking := by
  refine ⟨fun a ha => hw.working a ?_, ?_⟩
  · rwa [h.others] at ha
  · rw [h.others]
    exact hw.open_

/-- What writing does to a wire that takes what is written. -/
structure Wrote (w : Wire) (data : Bytes) (w' : Wire) : Prop where
  sent : w'.transport.sent = w.transport.sent ++ data
  incoming : w'.transport.incoming = w.transport.incoming
  cancellations : w'.clock.cancellations = w.clock.cancellations
  horizon : w'.horizon ≤ w.horizon
  taking : w'.Taking

variable {d : Deadline} {operation : String}

theorem horizon_answering_le (w : Wire) (a : WriteAnswer) (answers : List WriteAnswer) :
    ({ w with clock := w.clock.pass a.delay }.answering answers).horizon ≤
      (w.answering (a :: answers)).horizon := by
  simp only [horizon, answering, Clock.pass, List.map_cons, List.sum_cons, Transport.latest]
  omega

/-- Time passes while something is written. -/
theorem passes_sendBy (w : Wire) (d : Deadline) (operation : String) (answers : List WriteAnswer)
    (data : Bytes) : w.clock.Passes (w.sendBy d operation answers data).2.clock := by
  induction answers generalizing w data with
  | nil =>
    cases data with
    | nil => exact .refl _
    | cons b data =>
      simp only [sendBy]
      split
      · exact .refl _
      · split <;> exact .refl _
  | cons a answers ih =>
    cases data with
    | nil => exact .refl _
    | cons b data =>
      have hpass : w.clock.Passes (w.clock.pass a.delay) := ⟨rfl, Nat.le_add_right ..⟩
      have rest (w₁ : Wire) (h₁ : w.clock.Passes w₁.clock) (left : Bytes) :
          w.clock.Passes (w₁.sendBy d operation answers left).2.clock := h₁.trans (ih w₁ left)
      simp only [sendBy]
      split
      · exact .refl _
      · split
        · exact hpass
        · exact rest _ hpass _
        · split
          · exact rest _ hpass _
          · exact hpass

theorem passes_send (w : Wire) (d : Deadline) (operation : String) (data : Bytes) :
    w.clock.Passes (w.send d operation data).2.clock :=
  w.passes_sendBy d operation w.transport.outgoing data

/-- A deadline that permits a write has not passed when it begins. -/
theorem not_expired_of_sendBy {w : Wire} {answers : List WriteAnswer} {data : Bytes}
    (hperm : d.Permits (w.answering answers) (w.sendBy d operation answers data).2) :
    d.isExpired w.clock = false := by
  obtain hout | hlive := hperm
  · exact hout.not_expired
  · exact Deadline.not_expired_of_passes (w.passes_sendBy d operation answers data) hlive

theorem sendBy_of_taking (answers : List WriteAnswer) (w : Wire) (data : Bytes)
    (hw : (w.answering answers).Taking)
    (hperm : d.Permits (w.answering answers) (w.sendBy d operation answers data).2) :
    ∃ w', w.sendBy d operation answers data = (.ok (), w') ∧
      Wrote (w.answering answers) data w' := by
  induction answers generalizing w data with
  | nil =>
    cases data with
    | nil => exact ⟨w.answering [], rfl, (List.append_nil _).symm, rfl, rfl, Nat.le_refl _, hw⟩
    | cons b data =>
      have hexp : d.isExpired w.clock = false := not_expired_of_sendBy hperm
      have hopen : w.transport.refused = none := hw.open_
      refine ⟨(w.answering []).accept (b :: data), ?_, rfl, rfl, rfl, Nat.le_refl _,
        hw.working, hw.open_⟩
      simp only [sendBy, hexp, Bool.false_eq_true, if_false]
      split
      · rename_i e he
        rw [hopen] at he
        cases he
      · rfl
  | cons a answers ih =>
    cases data with
    | nil =>
      exact ⟨w.answering (a :: answers), rfl, (List.append_nil _).symm, rfl, rfl, Nat.le_refl _, hw⟩
    | cons b data =>
      have hexp : d.isExpired w.clock = false := not_expired_of_sendBy hperm
      have hle := horizon_answering_le w a answers
      -- the rest of the data meets the rest of the answers
      have rest (taken left : Bytes) (htl : b :: data = taken ++ left)
          (heq : w.sendBy d operation (a :: answers) (b :: data) =
            ({ w with clock := w.clock.pass a.delay }.accept taken).sendBy d operation answers
              left) :
          ∃ w', w.sendBy d operation (a :: answers) (b :: data) = (.ok (), w') ∧
            Wrote (w.answering (a :: answers)) (b :: data) w' := by
        rw [heq] at hperm ⊢
        let w₁ := { w with clock := w.clock.pass a.delay }.accept taken
        have hperm₁ : d.Permits (w₁.answering answers) (w₁.sendBy d operation answers left).2 :=
          hperm.of_le rfl hle
        obtain ⟨w', hs, hwrote⟩ := ih w₁ left
          ⟨fun a' ha' => hw.working a' (List.mem_cons_of_mem _ ha'), hw.open_⟩ hperm₁
        refine ⟨w', hs, ?_, hwrote.incoming, hwrote.cancellations, ?_, hwrote.taking⟩
        · rw [hwrote.sent, htl, ← List.append_assoc]
          rfl
        · exact Nat.le_trans hwrote.horizon hle
      have hwork := hw.working a (List.mem_cons_self ..)
      rw [WriteAnswer.Working] at hwork
      rcases ht : a.taken with e | _ | n
      · rw [ht] at hwork
        refine rest [] (b :: data) rfl ?_
        have hdelay : (e.kind.isDelay || e.kind = .interrupted) = true := hwork
        simp only [sendBy, hexp, ht, hdelay, accept, List.append_nil, Bool.false_eq_true, if_false,
          if_true]
      · rw [ht] at hwork
        exact absurd hwork (Nat.lt_irrefl 0)
      · refine rest _ _ (List.take_append_drop (n + 1) (b :: data)).symm ?_
        simp only [sendBy, hexp, ht, Bool.false_eq_true, if_false]

/-- **A wire that takes what is written** takes all of it before a deadline that permits it. -/
theorem send_of_taking (operation : String) {w : Wire} (data : Bytes) (hw : w.Taking)
    (hperm : d.Permits w (w.send d operation data).2) :
    ∃ w', w.send d operation data = (.ok (), w') ∧ Wrote w data w' :=
  sendBy_of_taking w.transport.outgoing w data hw hperm

theorem sendBy_spec (answers : List WriteAnswer) (w : Wire) (data : Bytes) :
    (w.sendBy d operation answers data).2.transport = { w.transport with
      outgoing := (w.sendBy d operation answers data).2.transport.outgoing
      sent := (w.sendBy d operation answers data).2.transport.sent } ∧
      ∀ message, (w.sendBy d operation answers data).1 ≠ .error (.illegalState message) := by
  induction answers generalizing w data with
  | nil =>
    cases data with
    | nil => exact ⟨rfl, fun _ h => by cases h⟩
    | cons b data =>
      simp only [sendBy]
      split
      · exact ⟨rfl, fun _ h => by cases h⟩
      · split <;> exact ⟨rfl, fun _ h => by cases h⟩
  | cons a answers ih =>
    cases data with
    | nil => exact ⟨rfl, fun _ h => by cases h⟩
    | cons b data =>
      simp only [sendBy]
      split
      · exact ⟨rfl, fun _ h => by cases h⟩
      · split
        · exact ⟨rfl, fun _ h => by cases h⟩
        · exact ih ..
        · split
          · exact ih ..
          · exact ⟨rfl, fun _ h => by cases h⟩

/-- Writing leaves all that belongs to reading as it is. -/
theorem others_send (w : Wire) (d : Deadline) (operation : String) (data : Bytes) :
    (w.send d operation data).2.transport = { w.transport with
      outgoing := (w.send d operation data).2.transport.outgoing
      sent := (w.send d operation data).2.transport.sent } :=
  (sendBy_spec _ w data).1

theorem incoming_send (w : Wire) (d : Deadline) (operation : String) (data : Bytes) :
    (w.send d operation data).2.transport.incoming = w.transport.incoming := by
  rw [others_send]

theorem send_ne_illegalState (w : Wire) (d : Deadline) (operation : String) (data : Bytes)
    (message : String) : (w.send d operation data).1 ≠ .error (.illegalState message) :=
  (sendBy_spec _ w data).2 message

/-- What a write gets accepted is a beginning of its data, and all of it if the write succeeds. -/
def Accepts (w : Wire) (data : Bytes) (r : Outcome Unit) (w' : Wire) : Prop :=
  ∃ accepted, accepted <+: data ∧ w'.transport.sent = w.transport.sent ++ accepted ∧
    (r = .ok () → accepted = data)

namespace Accepts

variable {w w' : Wire} {data : Bytes} {r : Outcome Unit}

theorem whole (h : w'.transport.sent = w.transport.sent ++ data) : Accepts w data r w' :=
  ⟨data, List.prefix_rfl, h, fun _ => rfl⟩

theorem nothing {e : Failure} (h : w'.transport.sent = w.transport.sent) :
    Accepts w data (.error e) w' :=
  ⟨[], List.nil_prefix, by rw [h, List.append_nil], nofun⟩

/-- A piece is accepted, and then something of the rest. -/
theorem further {n : Nat} (h : Accepts (w.accept (data.take n)) (data.drop n) r w') :
    Accepts w data r w' := by
  obtain ⟨accepted, hprefix, hsent, hall⟩ := h
  refine ⟨data.take n ++ accepted, ?_, ?_, fun hr => ?_⟩
  · conv => rhs; rw [← List.take_append_drop n data]
    exact (List.prefix_append_right_inj _).2 hprefix
  · rw [hsent, accept, List.append_assoc]
  · rw [hall hr, List.take_append_drop]

end Accepts

theorem sendBy_accepts (answers : List WriteAnswer) (w : Wire) (data : Bytes) :
    Accepts w data (w.sendBy d operation answers data).1 (w.sendBy d operation answers data).2 := by
  induction answers generalizing w data with
  | nil =>
    cases data with
    | nil => exact .whole (List.append_nil _).symm
    | cons b data =>
      simp only [sendBy]
      split
      · exact .nothing rfl
      · split
        · exact .nothing rfl
        · exact .whole rfl
  | cons a answers ih =>
    cases data with
    | nil => exact .whole (List.append_nil _).symm
    | cons b data =>
      simp only [sendBy]
      split
      · exact .nothing rfl
      · split
        · exact .nothing rfl
        · exact .further (ih ..)
        · split
          · exact ih { w with clock := w.clock.pass a.delay } (b :: data)
          · exact .nothing rfl

/-- **What a write gets accepted** is a beginning of its data, in however many pieces. -/
theorem send_accepts (w : Wire) (d : Deadline) (operation : String) (data : Bytes) :
    Accepts w data (w.send d operation data).1 (w.send d operation data).2 := sendBy_accepts ..

/-- A write that succeeds has sent all of its data, in however many pieces. -/
theorem sent_of_send {w w' : Wire} {data : Bytes} (h : w.send d operation data = (.ok (), w')) :
    w'.transport.sent = w.transport.sent ++ data := by
  have haccepts := w.send_accepts d operation data
  rw [h] at haccepts
  obtain ⟨accepted, -, hsent, hall⟩ := haccepts
  rw [hsent, hall rfl]

/-- A transport that has no answers to writes in store takes the whole of what is written, or none
of it. -/
theorem transport_send {w : Wire} (hw : w.transport.outgoing = []) (d : Deadline)
    (operation : String) (data : Bytes) :
    (w.send d operation data).2.transport =
      if (w.send d operation data).1.isOk then
        { w.transport with sent := w.transport.sent ++ data }
      else w.transport := by
  have hsame : { w.transport with outgoing := [] } = w.transport := by rw [← hw]
  rw [send, hw]
  cases data with
  | nil => simp only [sendBy, Except.isOk, Except.toBool, if_true, List.append_nil, hsame]
  | cons b data =>
    simp only [sendBy]
    split
    · exact hsame
    · split
      · exact hsame
      · simp only [accept, hw, Except.isOk, Except.toBool, if_true]

end Wire

end ScriptHost
