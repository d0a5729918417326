import ScriptHost.Proofs.Clock
import ScriptHost.Stream.Transport
import Mathlib.Data.List.MinMax
import Mathlib.Algebra.GroupWithZero.Nat

/-!
# Reading from a wire

What a caller gets out of a wire depends on how the bytes are cut into arrivals and on when these
come.  What it *makes* of them does not, and this file separates the two.

* `Deadline.isExpired_iff` — a deadline has expired when the instant at which it passes is over,
  which is all that the rest of the file knows of deadlines.
* `Wire.Took` — what reading does to a wire: it takes bytes off its stream, and time passes.
* `Reader` — a computation that asks for so many bytes at a time, apart from any wire.  It can be
  fed from a list of bytes (`Reader.feed`) or run on a wire (`Reader.run`), and `Reader.run_spec`
  relates the two: it comes to its result on exactly the bytes that it has taken, or breaks off
  between them.
* `Reader.run_of_calm` — on a calm wire, with a deadline that permits it, a reader breaks off only
  if the bytes do not suffice, and `Reader.run_of_ended` — if the stream has an end as well, it
  fails as it fails at that end.
-/

set_option autoImplicit false

namespace ScriptHost

/-! ## Concatenations -/

theorem length_flatMap_le {α : Type} {f g : α → Bytes} {l : List α} (h : ∀ a ∈ l, f a <+: g a) :
    (l.flatMap f).length ≤ (l.flatMap g).length := by
  induction l with
  | nil => exact Nat.le_refl _
  | cons a l ih =>
    obtain ⟨hfirst, hrest⟩ := List.forall_mem_cons.1 h
    simp only [List.flatMap_cons, List.length_append]
    exact Nat.add_le_add hfirst.length_le (ih hrest)

/-- A concatenation of beginnings is the whole only if each of them is. -/
theorem flatMap_eq_flatMap_iff {α : Type} {f g : α → Bytes} {l : List α}
    (h : ∀ a ∈ l, f a <+: g a) : l.flatMap f = l.flatMap g ↔ ∀ a ∈ l, f a = g a := by
  refine ⟨fun heq => ?_, List.flatMap_congr⟩
  induction l with
  | nil => exact nofun
  | cons a l ih =>
    obtain ⟨hfirst, hrest⟩ := List.forall_mem_cons.1 h
    have hle := length_flatMap_le hrest
    have hfirst := hfirst.length_le
    rw [List.flatMap_cons, List.flatMap_cons] at heq
    have hlength := congrArg List.length heq
    rw [List.length_append, List.length_append] at hlength
    have happ := List.append_inj heq (by omega)
    exact List.forall_mem_cons.2 ⟨happ.1, ih hrest happ.2⟩

/-! ## Deadlines -/

namespace Deadline

theorem exists_mem_earlier {a b : Option Nat} {n : Nat} :
    (∃ e ∈ earlier a b, e ≤ n) ↔ (∃ e ∈ a, e ≤ n) ∨ ∃ e ∈ b, e ≤ n := by
  cases a with
  | none => cases b <;> simp [earlier]
  | some i =>
    cases b with
    | none => simp [earlier]
    | some j => simp [earlier]

theorem exists_mem_cancelledAt {c : Clock} {t : Token} :
    (∃ e ∈ c.cancelledAt t, e ≤ c.now) ↔ c.isCancelled t = true := by
  have hmem (e : Nat) :
      e ∈ (c.cancellations.filter (·.1 = t)).map (·.2) ↔ (t, e) ∈ c.cancellations := by
    simp only [List.mem_map, List.mem_filter, decide_eq_true_eq]
    constructor
    · rintro ⟨⟨t', e'⟩, ⟨h, rfl⟩, rfl⟩
      exact h
    · exact fun h => ⟨(t, e), ⟨h, rfl⟩, rfl⟩
  have hany : c.isCancelled t = true ↔ ∃ e, (t, e) ∈ c.cancellations ∧ e ≤ c.now := by
    simp only [Clock.isCancelled, List.any_eq_true, Bool.and_eq_true, decide_eq_true_eq]
    constructor
    · rintro ⟨⟨t', e⟩, h, rfl, he⟩
      exact ⟨e, h, he⟩
    · rintro ⟨e, h, he⟩
      exact ⟨(t, e), h, rfl, he⟩
  rw [hany, Clock.cancelledAt]
  constructor
  · rintro ⟨e, he, hle⟩
    exact ⟨e, (hmem e).1 (List.min?_mem he), hle⟩
  · rintro ⟨e, he, hle⟩
    have he := (hmem e).2 he
    obtain ⟨m, hm⟩ := Option.isSome_iff_exists.1 (List.isSome_min?_of_mem he)
    exact ⟨m, hm, Nat.le_trans ((List.min?_eq_some_iff.1 hm).2 e he) hle⟩

/-- **A deadline has expired if and only if the instant at which it passes is over.** -/
theorem isExpired_iff {d : Deadline} {c : Clock} :
    d.isExpired c = true ↔ ∃ e ∈ d.expiry? c, e ≤ c.now := by
  have hfold (tokens : List Token) (a : Option Nat) :
      (∃ e ∈ tokens.foldl (fun e t => earlier e (c.cancelledAt t)) a, e ≤ c.now) ↔
        (∃ e ∈ a, e ≤ c.now) ∨ tokens.any c.isCancelled = true := by
    induction tokens generalizing a with
    | nil => simp
    | cons t tokens ih =>
      rw [List.foldl_cons, ih, exists_mem_earlier, exists_mem_cancelledAt, List.any_cons,
        Bool.or_eq_true, or_assoc]
  rw [expiry?, hfold, isExpired, isCancelled, Bool.or_eq_true, or_comm]
  cases d.at? <;> simp

/-- When a deadline passes does not depend on the time. -/
theorem expiry?_congr {d : Deadline} {c c' : Clock} (h : c'.cancellations = c.cancellations) :
    d.expiry? c' = d.expiry? c := by
  rw [expiry?, expiry?]
  congr 1
  funext e t
  rw [Clock.cancelledAt, Clock.cancelledAt, h]

/-- A deadline that has expired stays so. -/
theorem isExpired_of_passes {d : Deadline} {c c' : Clock} (h : c.Passes c')
    (hexp : d.isExpired c = true) : d.isExpired c' = true := by
  obtain ⟨e, he, hpassed⟩ := isExpired_iff.1 hexp
  exact isExpired_iff.2 ⟨e, by rwa [expiry?_congr h.cancellations], Nat.le_trans hpassed h.later⟩

/-- A deadline that has not expired yet had not expired before. -/
theorem not_expired_of_passes {d : Deadline} {c c' : Clock} (h : c.Passes c')
    (hlive : d.isExpired c' = false) : d.isExpired c = false := by
  rw [Bool.eq_false_iff] at hlive ⊢
  exact mt (isExpired_of_passes h) hlive

end Deadline

/-! ## Wires -/

namespace Arrival

/-- When it arrives. -/
def instant : Arrival → Nat
  | bytes instant _ => instant
  | trouble instant _ => instant

/-- The bytes that arrive. -/
def data : Arrival → Bytes
  | bytes _ data => data
  | trouble _ _ => []

/-- An arrival that does not break the stream: bytes, or a delay that a caller sits out. -/
def Harmless : Arrival → Prop
  | bytes _ _ => True
  | trouble _ e => (e.kind.isDelay || e.kind = .interrupted) = true

/-- What arrives are bytes. -/
def IsBytes : Arrival → Prop
  | bytes _ _ => True
  | trouble _ _ => False

theorem IsBytes.harmless {a : Arrival} (h : a.IsBytes) : a.Harmless := by
  cases a with
  | bytes => trivial
  | trouble => exact h.elim

end Arrival

namespace Transport

theorem unread_eq (t : Transport) : t.unread = t.incoming.flatMap Arrival.data := rfl

/-- The instant from which all that is incoming is there. -/
def latest (t : Transport) : Nat := (t.incoming.map Arrival.instant).foldr max 0

end Transport

namespace Wire

/-- What is still to be read. -/
def unread (w : Wire) : Bytes := w.transport.unread

/-- The wire with other arrivals to come. -/
def expecting (w : Wire) (arrivals : List Arrival) : Wire :=
  { w with transport := { w.transport with incoming := arrivals } }

@[simp] theorem unread_expecting (w : Wire) (arrivals : List Arrival) :
    (w.expecting arrivals).unread = arrivals.flatMap Arrival.data :=
  Transport.unread_eq _

/-- Nothing that is incoming breaks the stream. -/
def Calm (w : Wire) : Prop := ∀ a ∈ w.transport.incoming, a.Harmless

/-- Nothing is incoming but bytes. -/
def Smooth (w : Wire) : Prop := ∀ a ∈ w.transport.incoming, a.IsBytes

theorem Smooth.calm {w : Wire} (h : w.Smooth) : w.Calm := fun a ha => (h a ha).harmless

/-- All that is incoming is there by this instant, and all that the wire takes is taken. -/
def horizon (w : Wire) : Nat :=
  max w.clock.now w.transport.latest + (w.transport.outgoing.map (·.delay)).sum

/-- What reading does to a wire: it takes bytes off the stream, and time passes.  Nothing is
incoming afterwards but bytes and what was incoming before. -/
structure Took (w : Wire) (c : Bytes) (w' : Wire) : Prop where
  unread : w.unread = c ++ w'.unread
  others : w'.transport = { w.transport with incoming := w'.transport.incoming }
  cancellations : w'.clock.cancellations = w.clock.cancellations
  later : w.clock.now ≤ w'.clock.now
  kept (P : Arrival → Prop) (hbytes : ∀ instant data, P (.bytes instant data)) :
    (∀ a ∈ w.transport.incoming, P a) → ∀ a ∈ w'.transport.incoming, P a

namespace Took

theorem refl (w : Wire) : Took w [] w := ⟨rfl, rfl, rfl, Nat.le_refl _, fun _ _ => id⟩

theorem calm {w w' : Wire} {c : Bytes} (h : Took w c w') : w.Calm → w'.Calm :=
  h.kept Arrival.Harmless fun _ _ => trivial

theorem smooth {w w' : Wire} {c : Bytes} (h : Took w c w') : w.Smooth → w'.Smooth :=
  h.kept Arrival.IsBytes fun _ _ => trivial

theorem ended {w w' : Wire} {c : Bytes} (h : Took w c w') :
    w'.transport.ended = w.transport.ended := by
  rw [h.others]

theorem trans {w w' w'' : Wire} {c c' : Bytes} (h : Took w c w') (h' : Took w' c' w'') :
    Took w (c ++ c') w'' where
  unread := by rw [h.unread, h'.unread, List.append_assoc]
  others := by rw [h'.others, h.others]
  cancellations := h'.cancellations.trans h.cancellations
  later := Nat.le_trans h.later h'.later
  kept P hbytes hw := h'.kept P hbytes (h.kept P hbytes hw)

theorem passes {w w' : Wire} {c : Bytes} (h : Took w c w') : w.clock.Passes w'.clock :=
  ⟨h.cancellations, h.later⟩

end Took

end Wire

/-- The deadline passes only after the wire has had time for all that it will ever do. -/
def Deadline.Outlasts (d : Deadline) (w : Wire) : Prop := ∀ e ∈ d.expiry? w.clock, w.horizon < e

theorem Deadline.never_outlasts (w : Wire) : Deadline.never.Outlasts w := fun e he => by cases he

namespace Deadline.Outlasts

variable {d : Deadline} {w w' : Wire}

theorem of_le (h : d.Outlasts w) (hc : w'.clock.cancellations = w.clock.cancellations)
    (hle : w'.horizon ≤ w.horizon) : d.Outlasts w' := fun e he =>
  Nat.lt_of_le_of_lt hle (h e (by rwa [expiry?_congr hc] at he))

theorem now_lt (h : d.Outlasts w) {e : Nat} (he : e ∈ d.expiry? w.clock) : w.clock.now < e :=
  Nat.lt_of_le_of_lt (Nat.le_trans (Nat.le_max_left ..) (Nat.le_add_right ..)) (h e he)

theorem not_expired (h : d.Outlasts w) : d.isExpired w.clock = false := by
  rw [Bool.eq_false_iff, Ne, isExpired_iff]
  rintro ⟨e, he, hle⟩
  exact absurd (h.now_lt he) (Nat.not_lt.2 hle)

end Deadline.Outlasts

/-- The deadline is not what ends a call that finds the one wire and leaves the other: it outlasts
the wire, or at least it has not passed when the call is over. -/
def Deadline.Permits (d : Deadline) (w w' : Wire) : Prop :=
  d.Outlasts w ∨ d.isExpired w'.clock = false

theorem Deadline.Permits.of_le {d : Deadline} {w w' w'' : Wire} (h : d.Permits w w'')
    (hc : w'.clock.cancellations = w.clock.cancellations) (hle : w'.horizon ≤ w.horizon) :
    d.Permits w' w'' :=
  Or.imp_left (fun hout => hout.of_le hc hle) h

namespace Wire

variable {w w' : Wire} {d : Deadline} {operation : String} {size : Nat}

theorem took_expire (α : Type) (w : Wire) (d : Deadline) (operation : String) :
    ∃ w', (w.expire d operation : Outcome α × Wire) = (.error (.timeout operation), w') ∧
      Took w [] w' ∧ w'.transport = w.transport ∧
        ∀ e ∈ d.expiry? w.clock, d.isExpired w'.clock = true := by
  rw [expire]
  cases he : d.expiry? w.clock with
  | none => exact ⟨w, rfl, .refl w, rfl, nofun⟩
  | some e =>
    refine ⟨_, rfl, ⟨rfl, rfl, rfl, Nat.le_max_left .., fun _ _ => id⟩, rfl, fun _ _ => ?_⟩
    exact Deadline.isExpired_iff.2 ⟨e, he, Nat.le_max_right ..⟩

/-- Time passes until something is there. -/
def await (w : Wire) (instant : Nat) : Wire := { w with clock := w.clock.advanceTo instant }

theorem horizon_await_le (w : Wire) (a : Arrival) (rest : List Arrival) :
    ((w.await a.instant).expecting rest).horizon ≤ (w.expecting (a :: rest)).horizon := by
  simp only [horizon, await, expecting, Transport.latest, Clock.advanceTo, List.map_cons,
    List.foldr_cons]
  omega

/-- An arrival that brings nothing is passed over. -/
theorem took_await (w : Wire) {a : Arrival} (h : a.data = []) (rest : List Arrival) :
    Took (w.expecting (a :: rest)) [] ((w.await a.instant).expecting rest) where
  unread := by rw [unread_expecting, unread_expecting, List.flatMap_cons, h]
  others := rfl
  cancellations := rfl
  later := Nat.le_max_left ..
  kept _ _ hw b hb := hw b (List.mem_cons_of_mem _ hb)

/-- Bytes that are there are taken up to a size, and what is left of them stays. -/
theorem took_bytes (w : Wire) (instant : Nat) (data : Bytes) (rest : List Arrival) (size : Nat) :
    let left := data.drop size
    let w' := (w.await instant).expecting
      (if left.isEmpty then rest else .bytes instant left :: rest)
    Took (w.expecting (.bytes instant data :: rest)) (data.take size) w' ∧
      w'.horizon ≤ (w.expecting (.bytes instant data :: rest)).horizon := by
  intro left w'
  have hdata : data = data.take size ++ left := (List.take_append_drop size data).symm
  by_cases hl : left = []
  · have hw' : w' = (w.await instant).expecting rest := by
      simp only [w', hl, List.isEmpty_nil, if_true]
    rw [hw']
    refine ⟨⟨?_, rfl, rfl, Nat.le_max_left .., fun _ _ hw b hb => ?_⟩,
      horizon_await_le w (.bytes instant data) rest⟩
    case refine_2 => exact hw b (List.mem_cons_of_mem _ hb)
    rw [unread_expecting, unread_expecting, List.flatMap_cons, Arrival.data]
    rw [hl, List.append_nil] at hdata
    rw [← hdata]
  · have hw' : w' = (w.await instant).expecting (.bytes instant left :: rest) := by
      simp only [w', List.isEmpty_iff, hl, if_false]
    rw [hw']
    refine ⟨⟨?_, rfl, rfl, Nat.le_max_left .., fun P hbytes hw b hb => ?_⟩, ?_⟩
    · rw [unread_expecting, unread_expecting, List.flatMap_cons, List.flatMap_cons, Arrival.data,
        Arrival.data, ← List.append_assoc, ← hdata]
    · rcases List.mem_cons.1 hb with rfl | hb
      · exact hbytes _ _
      · exact hw b (List.mem_cons_of_mem _ hb)
    · simp only [horizon, await, expecting, Transport.latest, Clock.advanceTo, List.map_cons,
        List.foldr_cons, Arrival.instant]
      omega

/-- What a call that reads does: it takes some bytes, or none because the stream has ended or for a
failure.  On a calm wire, a deadline that permits the call leaves the end of the stream as the only
reason; and if the stream has an end, nothing but a deadline that has passed makes the call fail. -/
structure Reads (w : Wire) (d : Deadline) (size : Nat) (r : Outcome Bytes) (w' : Wire) : Prop where
  took : Took w (r.toOption.getD []) w'
  size : (r.toOption.getD []).length ≤ size
  horizon : r.isOk = true → w'.horizon ≤ w.horizon
  drained : r.toOption.getD [] = [] → (r.isOk = true ∨ w.Calm ∧ d.Permits w w') → w'.unread = []
  failed : r.isOk = false → w.Calm → w.transport.ended = true → d.isExpired w'.clock = true
  closed : r = .ok [] → w.transport.ended = true

theorem not_tooLate {a : Arrival} {rest : List Arrival}
    (h : d.Outlasts (w.expecting (a :: rest))) :
    tooLate (d.expiry? w.clock) w.clock.now a.instant = false := by
  rw [tooLate.eq_def]
  split
  · rename_i e he
    have hlt := h e he
    simp only [Wire.horizon, expecting, Transport.latest, List.map_cons, List.foldr_cons] at hlt
    rw [decide_eq_false_iff_not]
    omega
  · rfl

theorem receiveFrom_spec (hsize : 0 < size) (arrivals : List Arrival) (w : Wire) {r : Outcome Bytes}
    (h : w.receiveFrom d operation size arrivals = (r, w')) :
    Reads (w.expecting arrivals) d size r w' := by
  induction arrivals generalizing w with
  | nil =>
    rw [receiveFrom] at h
    have hnil : (w.expecting []).unread = [] := rfl
    simp only at h
    split at h
    · rename_i hended
      cases h
      exact ⟨.refl _, Nat.zero_le _, fun _ => Nat.le_refl _, fun _ _ => hnil,
        fun hfail => Bool.noConfusion hfail, fun _ => hended⟩
    · rename_i hopen
      obtain ⟨w₁, he, ht, htr, -⟩ := took_expire Bytes (w.expecting []) d operation
      rw [expecting] at he
      rw [he] at h
      cases h
      refine ⟨ht, Nat.zero_le _, fun hok => Bool.noConfusion hok, fun _ _ => ?_,
        fun _ _ hended => absurd hended hopen, nofun⟩
      rw [Wire.unread, htr]
      rfl
  | cons a rest ih =>
    -- whichever arrival it is, a caller whose deadline passes first goes away without it
    have late (hl : tooLate (d.expiry? w.clock) w.clock.now a.instant = true)
        (he : (w.expecting (a :: rest)).expire d operation = (r, w')) :
        Reads (w.expecting (a :: rest)) d size r w' := by
      obtain ⟨w₁, he', ht, -, hexp⟩ := took_expire Bytes (w.expecting (a :: rest)) d operation
      rw [he'] at he
      cases he
      have hexpired : d.isExpired w'.clock = true := by
        rw [tooLate.eq_def] at hl
        split at hl
        · rename_i e he
          exact hexp e he
        · cases hl
      refine ⟨ht, Nat.zero_le _, fun hok => Bool.noConfusion hok, fun _ hc => ?_,
        fun _ _ _ => hexpired, nofun⟩
      rcases hc with hok | ⟨-, hout | hlive⟩
      · cases hok
      · rw [not_tooLate hout] at hl
        cases hl
      · rw [hexpired] at hlive
        cases hlive
    -- and one that brings nothing is passed over
    have pass (ha : a.data = [])
        (hr : (w.await a.instant).receiveFrom d operation size rest = (r, w')) :
        Reads (w.expecting (a :: rest)) d size r w' := by
      have h₁ := took_await w ha rest
      have h₂ := ih (w.await a.instant) hr
      refine ⟨h₁.trans h₂.took, h₂.size, fun hok => ?_, fun hnil hc => h₂.drained hnil ?_,
        fun hfail hcalm hended => h₂.failed hfail (h₁.calm hcalm) (h₁.ended.trans hended),
        fun hnil => h₁.ended.symm.trans (h₂.closed hnil)⟩
      · exact Nat.le_trans (h₂.horizon hok) (horizon_await_le w a rest)
      · refine hc.imp_right fun ⟨hcalm, hperm⟩ => ⟨h₁.calm hcalm, hperm.of_le rfl ?_⟩
        exact horizon_await_le w a rest
    cases a with
    | bytes instant data =>
      rw [receiveFrom] at h
      split at h
      · exact late ‹_› h
      · by_cases hd : data = []
        · simp only [hd, List.isEmpty_nil, if_true] at h
          exact pass hd h
        · simp only [List.isEmpty_iff, hd, if_false] at h
          cases h
          have ht := took_bytes w instant data rest size
          simp only [List.isEmpty_iff] at ht
          have hsome : data.take size ≠ [] := by
            rw [Ne, List.take_eq_nil_iff]
            rintro (hz | hz)
            · omega
            · exact hd hz
          exact ⟨ht.1, List.length_take_le .., fun _ => ht.2, fun hnil => absurd hnil hsome,
            fun hfail => Bool.noConfusion hfail, fun hnil => absurd (Except.ok.inj hnil) hsome⟩
    | trouble instant e =>
      rw [receiveFrom] at h
      split at h
      · exact late ‹_› h
      · split at h
        · exact pass rfl h
        · rename_i hbreak
          cases h
          have hnot : ¬ (w.expecting (.trouble instant e :: rest)).Calm := fun hcalm => by
            refine absurd (hcalm (.trouble instant e) List.mem_cons_self) ?_
            simpa [Arrival.Harmless] using hbreak
          refine ⟨⟨?_, rfl, rfl, Nat.le_max_left .., fun _ _ hw b hb => ?_⟩, Nat.zero_le _,
            fun hok => Bool.noConfusion hok, fun _ hc => ?_, fun _ hcalm => absurd hcalm hnot,
            nofun⟩
          · rw [unread_expecting, List.flatMap_cons]
            exact (unread_expecting w rest).symm
          · exact hw b (List.mem_cons_of_mem _ hb)
          · rcases hc with hok | ⟨hcalm, -⟩
            · cases hok
            · exact absurd hcalm hnot

theorem receive_spec (hsize : 0 < size) {r : Outcome Bytes}
    (h : w.receive d operation size = (r, w')) : Reads w d size r w' := by
  rw [receive] at h
  split at h
  · rename_i hexp
    cases h
    refine ⟨.refl _, Nat.zero_le _, fun hok => Bool.noConfusion hok, fun _ hc => ?_,
      fun _ _ _ => hexp, nofun⟩
    rcases hc with hok | ⟨-, hout | hlive⟩
    · cases hok
    · rw [hout.not_expired] at hexp
      cases hexp
    · rw [hlive] at hexp
      cases hexp
  · rw [if_neg (Nat.ne_of_gt hsize)] at h
    exact receiveFrom_spec hsize w.transport.incoming w h

/-- Where nothing but bytes is incoming, reading without a deadline is reading before one that never
passes. -/
theorem receivePlain_of_smooth {size : Nat} (arrivals : List Arrival)
    (h : ∀ a ∈ arrivals, a.IsBytes) :
    w.receivePlain size arrivals = w.receiveFrom .never "read" size arrivals := by
  induction arrivals generalizing w with
  | nil => rfl
  | cons a rest ih =>
    cases a with
    | trouble => exact (h _ List.mem_cons_self).elim
    | bytes instant data =>
      rw [receivePlain]
      split
      · rename_i hempty
        have hintime : ¬ tooLate (Deadline.never.expiry? w.clock) w.clock.now instant = true :=
          Bool.false_ne_true
        rw [ih fun a ha => h a (List.mem_cons_of_mem _ ha), receiveFrom, if_neg hintime]
        exact (if_pos hempty).symm
      · rfl

/-- Reading changes nothing on the transport but what is incoming. -/
theorem others_receive (w : Wire) (d : Deadline) (operation : String) (size : Nat) :
    (w.receive d operation size).2.transport =
      { w.transport with incoming := (w.receive d operation size).2.transport.incoming } := by
  cases size with
  | zero =>
    rw [receive]
    split <;> rfl
  | succ size => exact (receive_spec (Nat.succ_pos size) rfl).took.others

end Wire

/-! ## Reading so many bytes -/

namespace Io

/-- The failure of a call that finds the end of the stream too early. -/
def early (operation : String) : Failure := .ofIoIn operation IoKind.unexpectedEof.fault

/-- What reading exactly `size` bytes does: it takes them, or breaks off before.  On a calm wire,
with a deadline that permits it, it breaks off only if there are not as many; and if the stream has
an end and the deadline has not passed, that is what the failure says. -/
inductive ReadsFull (w : Wire) (d : Deadline) (operation : String) (size : Nat) :
    Outcome Bytes → Wire → Prop
  | full {c : Bytes} {w' : Wire} : w.Took c w' → c.length = size → w'.horizon ≤ w.horizon →
      ReadsFull w d operation size (.ok c) w'
  | broken {c : Bytes} {e : Failure} {w' : Wire} : w.Took c w' → c.length < size →
      (w.Calm → d.Permits w w' → w'.unread = []) →
      (w.Calm → w.transport.ended = true → d.isExpired w'.clock = false → e = early operation) →
      ReadsFull w d operation size (.error e) w'

variable {d : Deadline} {operation : String}

theorem bind_apply {α β : Type} (x : Io α) (f : α → Io β) (w : Wire) :
    (x >>= f) w =
      match x w with
      | (.ok a, w') => f a w'
      | (.error e, w') => (.error e, w') := by
  show ExceptT.bindCont f (x w).1 (x w).2 = _
  rcases x w with ⟨e | a, w'⟩ <;> rfl

theorem readMore_succ (fuel missing : Nat) (got : Bytes) :
    readMore d operation (fuel + 1) (missing + 1) got =
      (readSome d operation (missing + 1) >>= fun chunk =>
        if chunk.isEmpty then throw (.ofIoIn operation IoKind.unexpectedEof.fault)
        else readMore d operation fuel (missing + 1 - chunk.length) (got ++ chunk)) := rfl

theorem readMore_spec (fuel missing : Nat) (got : Bytes) (hfuel : missing ≤ fuel) (w₀ w : Wire)
    (h₀ : w₀.Took got w) (hh : w.horizon ≤ w₀.horizon) {r : Outcome Bytes} {w' : Wire}
    (h : readMore d operation fuel missing got w = (r, w')) :
    ReadsFull w₀ d operation (got.length + missing) r w' := by
  induction fuel generalizing missing got w with
  | zero =>
    obtain rfl := Nat.le_zero.1 hfuel
    cases h
    exact .full h₀ rfl hh
  | succ fuel ih =>
    cases missing with
    | zero =>
      cases h
      exact .full h₀ rfl hh
    | succ missing =>
      rw [readMore_succ, bind_apply, readSome] at h
      rcases hr : w.receive d operation (missing + 1) with ⟨e | chunk, w₁⟩
      · have hs := Wire.receive_spec (Nat.succ_pos missing) hr
        rw [hr] at h
        cases h
        have ht := h₀.trans hs.took
        rw [show Except.toOption (.error e : Outcome Bytes) = none from rfl, Option.getD_none,
          List.append_nil] at ht
        refine .broken ht (by omega) (fun hcalm hperm => ?_) fun hcalm hended hlive => ?_
        · exact hs.drained rfl (.inr ⟨h₀.calm hcalm, hperm.of_le h₀.cancellations hh⟩)
        · rw [hs.failed rfl (h₀.calm hcalm) (h₀.ended.trans hended)] at hlive
          cases hlive
      · have hs := Wire.receive_spec (Nat.succ_pos missing) hr
        have ht := h₀.trans hs.took
        have hle := hs.size
        simp only [hr] at h
        by_cases hnil : chunk = []
        · -- an empty chunk is the end of the stream, and too early
          subst hnil
          cases h
          rw [show Except.toOption (.ok [] : Outcome Bytes) = some [] from rfl, Option.getD_some,
            List.append_nil] at ht
          exact .broken ht (by omega) (fun _ _ => hs.drained rfl (.inl rfl)) fun _ _ _ => rfl
        · rw [if_neg (by rwa [List.isEmpty_iff])] at h
          have hpos : 0 < chunk.length := List.length_pos_iff.2 hnil
          have hlen : chunk.length ≤ missing + 1 := hle
          have hih := ih (missing + 1 - chunk.length) (got ++ chunk) (by omega) w₁ ht
            (Nat.le_trans (hs.horizon rfl) hh) h
          rwa [List.length_append, show got.length + chunk.length + (missing + 1 - chunk.length) =
            got.length + (missing + 1) by omega] at hih

theorem readFull_spec {size : Nat} {w w' : Wire} {r : Outcome Bytes}
    (h : readFull d operation size w = (r, w')) : ReadsFull w d operation size r w' := by
  have hs := readMore_spec size size [] (Nat.le_refl _) w w (.refl w) (Nat.le_refl _) h
  rwa [List.length_nil, Nat.zero_add] at hs

end Io

/-! ## Readers -/

/-- A computation that asks for so many bytes at a time and then has its result. -/
inductive Reader (α : Type) where
  | done (r : Outcome α)
  | need (size : Nat) (next : Bytes → Reader α)

namespace Reader

variable {α : Type}

/-- A reader on a list of bytes: its result and the bytes that it leaves, if the bytes suffice. -/
def feed : Reader α → Bytes → Option (Outcome α × Bytes)
  | done r, bytes => some (r, bytes)
  | need size next, bytes =>
    if size ≤ bytes.length then (next (bytes.take size)).feed (bytes.drop size) else none

/-- A reader on a wire. -/
def run (d : Deadline) (operation : String) : Reader α → Io α
  | done r => fun w => (r, w)
  | need size next => do
    let bytes ← Io.readFull d operation size
    (next bytes).run d operation

@[simp] theorem feed_done (r : Outcome α) (bytes : Bytes) :
    (done r).feed bytes = some (r, bytes) := rfl

theorem feed_need {size : Nat} {next : Bytes → Reader α} {c rest : Bytes} (h : c.length = size) :
    (need size next).feed (c ++ rest) = (next c).feed rest := by
  rw [feed, if_pos (by rw [List.length_append]; omega), List.take_left' h, List.drop_left' h]

theorem feed_need_of_lt {size : Nat} {next : Bytes → Reader α} {bytes : Bytes}
    (h : bytes.length < size) : (need size next).feed bytes = none := by
  rw [feed, if_neg (Nat.not_le.2 h)]

/-- One reader after another. -/
def bind {β : Type} : Reader α → (α → Reader β) → Reader β
  | done (.ok a), f => f a
  | done (.error e), _ => done (.error e)
  | need size next, f => need size fun bytes => (next bytes).bind f

theorem feed_bind {β : Type} (p : Reader α) (f : α → Reader β) (bytes : Bytes) :
    (p.bind f).feed bytes =
      match p.feed bytes with
      | some (.ok a, rest) => (f a).feed rest
      | some (.error e, rest) => some (.error e, rest)
      | none => none := by
  induction p generalizing bytes with
  | done r => cases r <;> rfl
  | need size next ih =>
    rw [bind, feed, feed]
    split
    · exact ih _ _
    · rfl

theorem run_bind {β : Type} (d : Deadline) (operation : String) (p : Reader α) (f : α → Reader β) :
    (p.bind f).run d operation = p.run d operation >>= fun a => (f a).run d operation := by
  induction p with
  | done r =>
    funext w
    cases r <;> rfl
  | need size next ih =>
    funext w
    rw [bind, run, run, Io.bind_apply, Io.bind_apply, Io.bind_apply]
    rcases Io.readFull d operation size w with ⟨e | bytes, w'⟩
    · rfl
    · show ((next bytes).bind f).run d operation w' = _
      rw [ih, Io.bind_apply]

/-- Bytes behind those that a reader takes make no difference to it. -/
theorem feed_append {p : Reader α} {bytes rest : Bytes} {r : Outcome α}
    (h : p.feed bytes = some (r, rest)) (more : Bytes) :
    p.feed (bytes ++ more) = some (r, rest ++ more) := by
  induction p generalizing bytes with
  | done r' =>
    cases h
    rfl
  | need size next ih =>
    rw [feed] at h
    split at h
    · rename_i hle
      rw [← List.take_append_drop size bytes, List.append_assoc,
        feed_need (List.length_take_of_le hle)]
      exact ih _ h
    · cases h

/-- A reader takes a beginning of the bytes. -/
theorem eq_append_of_feed {p : Reader α} {bytes rest : Bytes} {r : Outcome α}
    (h : p.feed bytes = some (r, rest)) :
    ∃ c, bytes = c ++ rest ∧ p.feed c = some (r, []) := by
  induction p generalizing bytes with
  | done r' =>
    cases h
    exact ⟨[], rfl, rfl⟩
  | need size next ih =>
    rw [feed] at h
    split at h
    · rename_i hle
      obtain ⟨c, hc, hf⟩ := ih _ h
      refine ⟨bytes.take size ++ c, ?_, ?_⟩
      · rw [List.append_assoc, ← hc, List.take_append_drop]
      · rw [feed_need (List.length_take_of_le hle), hf]
    · cases h

theorem length_le_of_feed {p : Reader α} {bytes rest : Bytes} {r : Outcome α}
    (h : p.feed bytes = some (r, rest)) : rest.length ≤ bytes.length := by
  obtain ⟨c, rfl, -⟩ := eq_append_of_feed h
  rw [List.length_append]
  exact Nat.le_add_left ..

/-- What running a reader on a wire does: the bytes that it has taken are those that its result
rests on, or they do not suffice for one.  On a calm wire, with a deadline that permits it, that is
because there are no more; and if the stream has an end and the deadline has not passed, that is
what the failure says. -/
inductive Runs (p : Reader α) (w : Wire) (d : Deadline) (operation : String) :
    Outcome α → Wire → Prop
  | done {c : Bytes} {r : Outcome α} {w' : Wire} : w.Took c w' → p.feed c = some (r, []) →
      w'.horizon ≤ w.horizon → Runs p w d operation r w'
  | broken {c : Bytes} {e : Failure} {w' : Wire} : w.Took c w' → p.feed c = none →
      (w.Calm → d.Permits w w' → w'.unread = []) →
      (w.Calm → w.transport.ended = true → d.isExpired w'.clock = false →
        e = Io.early operation) →
      Runs p w d operation (.error e) w'

/-- **A reader does on a wire what it does on the bytes that it takes from it.** -/
theorem run_spec {p : Reader α} {d : Deadline} {operation : String} {w w' : Wire} {r : Outcome α}
    (h : p.run d operation w = (r, w')) : p.Runs w d operation r w' := by
  induction p generalizing w with
  | done r' =>
    cases h
    exact .done (.refl _) rfl (Nat.le_refl _)
  | need size next ih =>
    rw [run, Io.bind_apply] at h
    rcases hf : Io.readFull d operation size w with ⟨r₁, w₁⟩
    rw [hf] at h
    cases Io.readFull_spec hf with
    | broken ht hlt hdrained hearly =>
      cases h
      exact .broken ht (feed_need_of_lt hlt) hdrained hearly
    | full ht hlen hle =>
      cases ih _ h with
      | done ht' hfeed hle' =>
        refine .done (ht.trans ht') ?_ (Nat.le_trans hle' hle)
        rw [feed_need hlen, hfeed]
      | broken ht' hfeed hdrained hearly =>
        refine .broken (ht.trans ht') (by rw [feed_need hlen, hfeed]) (fun hcalm hperm => ?_)
          fun hcalm hended => hearly (ht.calm hcalm) (ht.ended.trans hended)
        exact hdrained (ht.calm hcalm) (hperm.of_le ht.cancellations hle)

/-- Whatever comes of it, a reader takes bytes off the stream, and time passes. -/
theorem took_run (p : Reader α) (d : Deadline) (operation : String) (w : Wire) :
    ∃ c, w.Took c (p.run d operation w).2 := by
  rcases hr : p.run d operation w with ⟨r, w'⟩
  cases run_spec hr with
  | done ht | broken ht => exact ⟨_, ht⟩

theorem passes_run (p : Reader α) (d : Deadline) (operation : String) (w : Wire) :
    w.clock.Passes (p.run d operation w).2.clock :=
  (p.took_run d operation w).elim fun _ ht => ht.passes

/-- **On a calm wire, with a deadline that permits it**, a reader has the result that it has on the
unread bytes, and fails if they do not suffice. -/
theorem run_of_calm (p : Reader α) {d : Deadline} (operation : String) {w : Wire} (hcalm : w.Calm)
    (hperm : d.Permits w (p.run d operation w).2) :
    match p.feed w.unread with
    | some (r, rest) => ∃ c w', p.run d operation w = (r, w') ∧ w.Took c w' ∧ w'.unread = rest ∧
        w'.horizon ≤ w.horizon
    | none => ∃ e c w', p.run d operation w = (.error e, w') ∧ w.Took c w' := by
  rcases hr : p.run d operation w with ⟨r, w'⟩
  rw [hr] at hperm
  cases run_spec hr with
  | done ht hfeed hle =>
    rw [ht.unread, feed_append hfeed]
    exact ⟨_, w', rfl, ht, rfl, hle⟩
  | broken ht hfeed hdrained =>
    rw [ht.unread, hdrained hcalm hperm, List.append_nil, hfeed]
    exact ⟨_, _, w', rfl, ht⟩

/-- A reader on a stream that ends behind the bytes. -/
def conclude (p : Reader α) (operation : String) (bytes : Bytes) : Outcome α × Bytes :=
  (p.feed bytes).getD (.error (Io.early operation), [])

theorem conclude_eq_ok_iff {p : Reader α} {operation : String} {bytes rest : Bytes} {a : α} :
    p.conclude operation bytes = (.ok a, rest) ↔ p.feed bytes = some (.ok a, rest) := by
  rw [conclude]
  rcases p.feed bytes with _ | ⟨e | a', rest'⟩ <;> simp

/-- **On a calm wire whose stream ends**, a reader does on the wire what it does on the unread bytes
and the end behind them, if its deadline has not passed by then. -/
theorem run_of_ended {p : Reader α} {d : Deadline} {operation : String} {w w' : Wire}
    {r : Outcome α} (h : p.run d operation w = (r, w')) (hcalm : w.Calm)
    (hended : w.transport.ended = true) (hlive : d.isExpired w'.clock = false) :
    p.conclude operation w.unread = (r, w'.unread) := by
  rw [conclude]
  cases run_spec h with
  | done ht hfeed =>
    rw [ht.unread, feed_append hfeed]
    rfl
  | broken ht hfeed hdrained hearly =>
    rw [ht.unread, hdrained hcalm (.inr hlive), List.append_nil, hfeed,
      hearly hcalm hended hlive]
    rfl

end Reader

end ScriptHost
