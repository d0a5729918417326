import ScriptHost.Proofs.Stream.Reading
import ScriptHost.Socket.Connection

/-!
# What reads take from a connection

A connection holds the bytes that have come and have not been read, and behind them are those that
are still to come.  Filling the buffer moves bytes from the one part to the other.  A read of so
many bytes takes what it returns, and nothing if it fails.  A read of a line takes the parts of the
line as they come, and if it fails behind one of them, then this part is gone: the reads that
succeed return the stream without a gap if and only if no read of a line breaks off in this way.

* `TcpConnection.Takes` — what is taken from the front of the stream.
* `TcpConnection.takes_read`, `TcpConnection.readLine_spec` — what the two kinds of reads take.
* `TcpConnection.stream_of_reading` — where the bytes of the stream go.
-/

set_option autoImplicit false

namespace ScriptHost.TcpConnection

/-- The bytes that have not been read, whether they have come or not. -/
def held (σ : TcpConnection × Wire) : Bytes := σ.1.buffer ++ σ.2.unread

/-- Bytes are taken from the front of the stream. -/
structure Takes (σ : TcpConnection × Wire) (taken : Bytes) (σ' : TcpConnection × Wire) : Prop where
  held : held σ = taken ++ held σ'
  closed : σ'.1.closed = σ.1.closed

namespace Takes

variable {σ σ' σ'' : TcpConnection × Wire} {taken taken' : Bytes}

theorem refl (σ : TcpConnection × Wire) : Takes σ [] σ := ⟨rfl, rfl⟩

theorem trans (h : Takes σ taken σ') (h' : Takes σ' taken' σ'') : Takes σ (taken ++ taken') σ'' :=
  ⟨by rw [h.held, h'.held, List.append_assoc], h'.closed.trans h.closed⟩

/-- The front of a buffer is taken when the rest of it is put back. -/
theorem front {front rest : Bytes} (h : σ.1.buffer = front ++ rest) :
    Takes σ front ({ σ.1 with buffer := rest }, σ.2) :=
  ⟨by rw [TcpConnection.held, h, List.append_assoc]; rfl, rfl⟩

end Takes

/-! ## Reads -/

theorem Call.bind_apply {α β : Type} (x : Call α) (f : α → Call β) (σ : TcpConnection × Wire) :
    (x >>= f) σ =
      match x σ with
      | (.ok a, σ') => f a σ'
      | (.error e, σ') => (.error e, σ') := by
  show ExceptT.bindCont f (x σ).1 (x σ).2 = _
  rcases x σ with ⟨e | a, σ'⟩ <;> rfl

theorem ensureOpen_bind {α : Type} (f : Unit → Call α) {σ : TcpConnection × Wire}
    (h : σ.1.closed = false) : (ensureOpen >>= f) σ = f () σ := by
  have hopen : ensureOpen σ = (.ok (), σ) := by
    rw [ensureOpen, Call.bind_apply, getConnection]
    dsimp only
    rw [h]
    rfl
  rw [Call.bind_apply, hopen]

theorem bufferSize_pos : 0 < bufferSize := Nat.succ_pos 8191

/-- Filling takes nothing: what it has got is in the buffer. -/
theorem fill_spec (d : Deadline) (operation : String) {size : Nat} (hsize : 0 < size)
    (σ : TcpConnection × Wire) :
    Takes σ [] (fill d operation size σ).2 ∧
      ∀ buffer, (fill d operation size σ).1 = .ok buffer →
        (fill d operation size σ).2.1.buffer = buffer := by
  obtain ⟨c, w⟩ := σ
  rw [fill]
  split
  · exact ⟨.refl _, nofun⟩
  · split
    · rename_i hempty
      rw [List.isEmpty_iff] at hempty
      rcases hr : Io.readSome d operation size w with ⟨e | data, w'⟩ <;>
        have hunread := (Wire.receive_spec hsize hr).took.unread <;>
        refine ⟨⟨?_, rfl⟩, ?_⟩
      · simpa [held, Except.toOption] using hunread
      · exact nofun
      · simpa [held, hempty, Except.toOption] using hunread
      · rintro _ ⟨⟩
        rfl
    · refine ⟨.refl _, ?_⟩
      rintro _ ⟨⟩
      rfl

variable {d : Deadline} {σ : TcpConnection × Wire}

/-- **A read of so many bytes takes what it returns**, and nothing if it fails. -/
theorem takes_read (size : Nat) (d : Deadline) (h : σ.1.closed = false) :
    Takes σ ((read size d σ).1.toOption.getD []) (read size d σ).2 := by
  have hfill := fill_spec d "tcp read"
    (Nat.lt_of_lt_of_le bufferSize_pos (Nat.le_max_right (max size 1) bufferSize)) σ
  rw [read, ensureOpen_bind _ h, Call.bind_apply]
  rcases hr : fill d "tcp read" (max (max size 1) bufferSize) σ with ⟨e | buffer, σ'⟩ <;>
    rw [hr] at hfill
  · exact hfill.1
  · have hbuffer : σ'.1.buffer = buffer.take (max size 1) ++ buffer.drop (max size 1) := by
      rw [List.take_append_drop]
      exact hfill.2 buffer rfl
    exact hfill.1.trans (.front hbuffer)

/-- A part of the line is there before the time for the first part of it is over. -/
def HasPart (d : Deadline) (start : Clock) (σ : TcpConnection × Wire) : Prop :=
  (fill (patience d start σ.2.clock) "tcp read line" bufferSize σ).1.isOk = true

/-- What one round of reading a line comes to. -/
inductive Round (d : Deadline) (start : Clock) (fuel : Nat) (line : Bytes)
    (σ : TcpConnection × Wire) : Outcome Bytes × (TcpConnection × Wire) → Prop
  | failed {e : Failure} {σ' : TcpConnection × Wire} : ¬ HasPart d start σ → Takes σ [] σ' →
      Round d start fuel line σ (.error e, σ')
  | last {part : Bytes} {σ' : TcpConnection × Wire} : Takes σ part σ' →
      Round d start fuel line σ (.ok (line ++ part), σ')
  | further {part : Bytes} {σ' : TcpConnection × Wire} : HasPart d start σ → Takes σ part σ' →
      part ≠ [] → 10 ∉ part →
        Round d start fuel line σ (readLineFrom d start fuel (line ++ part) σ')

theorem not_mem_takeWhile (buffer : Bytes) : 10 ∉ buffer.takeWhile (· ≠ 10) := fun h => by
  simpa using List.all_eq_true.1 List.all_takeWhile 10 h

theorem round (d : Deadline) (start : Clock) (fuel : Nat) (line : Bytes)
    (σ : TcpConnection × Wire) :
    Round d start fuel line σ (readLineFrom d start (fuel + 1) line σ) := by
  have hfill := fill_spec (patience d start σ.2.clock) "tcp read line" bufferSize_pos σ
  rw [readLineFrom, Call.bind_apply, getClock]
  dsimp only
  rw [Call.bind_apply]
  rcases hr : fill (patience d start σ.2.clock) "tcp read line" bufferSize σ with
    ⟨e | buffer, σ'⟩ <;>
    rw [hr] at hfill
  · exact .failed (by rw [HasPart, hr]; exact Bool.false_ne_true) hfill.1
  · have hpart : HasPart d start σ := by rw [HasPart, hr]; rfl
    have hsplit : σ'.1.buffer = buffer.takeWhile (· ≠ 10) ++ buffer.dropWhile (· ≠ 10) := by
      rw [List.takeWhile_append_dropWhile]
      exact hfill.2 buffer rfl
    dsimp only
    rw [Call.bind_apply, setBuffer]
    dsimp only
    have hnone := not_mem_takeWhile buffer
    cases buffer with
    | nil => exact .last (hfill.1.trans (.front hsplit))
    | cons b buffer =>
      generalize (b :: buffer).takeWhile (· ≠ 10) = front at hsplit hnone ⊢
      generalize (b :: buffer).dropWhile (· ≠ 10) = rest at hsplit ⊢
      rcases rest with _ | ⟨ending, rest⟩
      · -- no end of the line has come
        have hfront : front ≠ [] := fun h => by
          rw [h, hfill.2 _ rfl] at hsplit
          cases hsplit
        exact .further hpart (hfill.1.trans (.front hsplit)) hfront hnone
      · rw [List.append_cons] at hsplit
        have hlast := hfill.1.trans (.front hsplit)
        show Round d start fuel line σ (.ok (line ++ front ++ [ending]), _)
        rw [List.append_assoc]
        exact .last hlast

/-- What a read of a line takes, of which `line` has been read: all that it returns of the line, or,
if it fails, parts without the end of the line, and none only if it has not got any. -/
structure TakesLine (d : Deadline) (start : Clock) (line : Bytes) (σ : TcpConnection × Wire)
    (r : Outcome Bytes) (taken : Bytes) (σ' : TcpConnection × Wire) : Prop where
  takes : Takes σ taken σ'
  returned : ∀ data, r = .ok data → data = line ++ taken
  lost : ∀ e, r = .error e → 10 ∉ taken ∧ (taken = [] ↔ ¬ HasPart d start σ)

theorem readLineFrom_spec (d : Deadline) (start : Clock) (fuel : Nat) (line : Bytes)
    (σ : TcpConnection × Wire) :
    ∃ taken, TakesLine d start line σ (readLineFrom d start fuel line σ).1 taken
      (readLineFrom d start fuel line σ).2 := by
  induction fuel generalizing line σ with
  | zero => exact ⟨[], .refl σ, fun _ h => by cases h; simp, nofun⟩
  | succ fuel ih =>
    have hround := round d start fuel line σ
    generalize readLineFrom d start (fuel + 1) line σ = result at hround ⊢
    cases hround with
    | failed hnone htakes =>
      exact ⟨[], htakes, nofun, fun _ _ => ⟨List.not_mem_nil, by simp [hnone]⟩⟩
    | last htakes => exact ⟨_, htakes, fun _ h => by cases h; rfl, nofun⟩
    | @further part σ' hpart htakes hne hend =>
      obtain ⟨taken, h⟩ := ih (line ++ part) σ'
      refine ⟨part ++ taken, htakes.trans h.takes, fun data hdata => ?_, fun e he => ?_⟩
      · rw [h.returned data hdata, List.append_assoc]
      · exact ⟨by simp [hend, (h.lost e he).1], by simp [hne, hpart]⟩

/-- A part of the line is there before the time is over. -/
def Begins (d : Deadline) (σ : TcpConnection × Wire) : Prop :=
  d.isExpired σ.2.clock = false ∧ HasPart d σ.2.clock σ

/-- **A read of a line takes what it returns.**  If it fails it takes what has come of the line. -/
theorem readLine_spec (d : Deadline) (h : σ.1.closed = false) :
    ∃ taken, Takes σ taken (readLine d σ).2 ∧
      (∀ data, (readLine d σ).1 = .ok data → taken = data) ∧
      ∀ e, (readLine d σ).1 = .error e → 10 ∉ taken ∧ (taken = [] ↔ ¬ Begins d σ) := by
  have hline : readLine d σ = if d.isExpired σ.2.clock then
      (.error (.timeout "tcp read line"), σ) else readLineFrom d σ.2.clock _ [] σ :=
    ensureOpen_bind _ h
  rw [hline]
  split
  · rename_i hexpired
    exact ⟨[], .refl σ, nofun, fun _ _ => ⟨List.not_mem_nil, by simp [Begins, hexpired]⟩⟩
  · rename_i hlive
    obtain ⟨taken, hspec⟩ := readLineFrom_spec d σ.2.clock _ [] σ
    refine ⟨taken, hspec.takes, fun data hdata => (hspec.returned data hdata).symm, fun e he => ?_⟩
    rw [Begins, and_iff_right (Bool.eq_false_iff.2 hlive)]
    exact hspec.lost e he

/-! ## A connection in the hands of its readers -/

/-- A read before a deadline. -/
inductive Read where
  | bytes (size : Nat) (d : Deadline)
  | line (d : Deadline)

/-- What a read does. -/
def Read.act : Read → Call Bytes
  | bytes size d => read size d
  | line d => readLine d

/-- A read, and the connection as it found it. -/
structure Deed where
  read : Read
  before : TcpConnection × Wire

namespace Deed

/-- What the reader gets. -/
def reply (d : Deed) : Outcome Bytes := (d.read.act d.before).1

/-- The connection behind the read. -/
def after (d : Deed) : TcpConnection × Wire := (d.read.act d.before).2

/-- The bytes that the reader gets. -/
def returned (d : Deed) : Bytes := d.reply.toOption.getD []

/-- The bytes that are not there any more behind the read. -/
def taken (d : Deed) : Bytes :=
  (held d.before).take ((held d.before).length - (held d.after).length)

/-- A read of a line that has got a part of the line and then fails. -/
def BreaksOff (d : Deed) : Prop :=
  ∃ limit, d.read = .line limit ∧ Begins limit d.before ∧ d.reply.isOk = false

/-- Where the bytes that a read takes go. -/
structure Accounts (d : Deed) : Prop where
  takes : Takes d.before d.taken d.after
  returned : ∀ data, d.reply = .ok data → d.taken = data
  lost : ∀ e, d.reply = .error e → 10 ∉ d.taken ∧ (d.taken = [] ↔ ¬ d.BreaksOff)

theorem accounts_of {d : Deed} {taken : Bytes} (htakes : Takes d.before taken d.after)
    (hreturned : ∀ data, d.reply = .ok data → taken = data)
    (hlost : ∀ e, d.reply = .error e → 10 ∉ taken ∧ (taken = [] ↔ ¬ d.BreaksOff)) : d.Accounts := by
  have htaken : d.taken = taken := by
    rw [Deed.taken, htakes.held, List.length_append, Nat.add_sub_cancel]
    exact List.take_left
  rw [← htaken] at htakes hreturned hlost
  exact ⟨htakes, hreturned, hlost⟩

/-- On an open connection every read accounts for what it takes. -/
theorem accounts (d : Deed) (hopen : d.before.1.closed = false) : d.Accounts := by
  obtain ⟨read, σ⟩ := d
  cases read with
  | bytes size limit =>
    refine accounts_of (takes_read size limit hopen) (fun data hdata => ?_) fun e he => ?_
    · have hdata : (TcpConnection.read size limit σ).1 = .ok data := hdata
      rw [hdata]
      rfl
    · have he : (TcpConnection.read size limit σ).1 = .error e := he
      rw [he]
      exact ⟨List.not_mem_nil, fun _ ⟨_, hline, _⟩ => Read.noConfusion hline, fun _ => rfl⟩
  | line limit =>
    obtain ⟨taken, htakes, hreturned, hlost⟩ := readLine_spec limit hopen
    refine accounts_of htakes hreturned fun e he => ⟨(hlost e he).1, (hlost e he).2.trans ?_⟩
    refine not_congr ⟨fun h => ⟨limit, rfl, h, ?_⟩, ?_⟩
    · rw [he]
      rfl
    · rintro ⟨_, ⟨⟩, h, -⟩
      exact h

end Deed

/-- Reads one after the other, and the stream as far as the peer has sent it.  In between more may
come, and time passes. -/
inductive Reading (σ₀ : TcpConnection × Wire) :
    List Deed → Bytes → TcpConnection × Wire → Prop
  | start : Reading σ₀ [] (held σ₀) σ₀
  | read {deeds : List Deed} {stream : Bytes} {σ : TcpConnection × Wire} :
      Reading σ₀ deeds stream σ → ∀ r,
        Reading σ₀ (deeds ++ [⟨r, σ⟩]) stream (Deed.after ⟨r, σ⟩)
  | meanwhile {deeds : List Deed} {stream : Bytes} {σ : TcpConnection × Wire} {w : Wire} :
      Reading σ₀ deeds stream σ → ∀ more, w.unread = σ.2.unread ++ more →
        Reading σ₀ deeds (stream ++ more) (σ.1, w)

section Runs

variable {σ₀ : TcpConnection × Wire} {deeds : List Deed} {stream : Bytes}

/-- What is taken and what is held make up the stream. -/
theorem accounts_of_reading (hopen : σ₀.1.closed = false) (h : Reading σ₀ deeds stream σ) :
    σ.1.closed = false ∧ stream = deeds.flatMap Deed.taken ++ held σ ∧
      ∀ d ∈ deeds, d.Accounts := by
  induction h with
  | start => exact ⟨hopen, rfl, nofun⟩
  | @read deeds stream σ _ r ih =>
    obtain ⟨hσ, hstream, hdeeds⟩ := ih
    have hdeed := Deed.accounts ⟨r, σ⟩ hσ
    refine ⟨hdeed.takes.closed.trans hσ, ?_, fun d hd => ?_⟩
    · rw [List.flatMap_append, List.flatMap_singleton, List.append_assoc, ← hdeed.takes.held]
      exact hstream
    · rcases List.mem_append.1 hd with hd | hd
      · exact hdeeds d hd
      · rwa [List.mem_singleton.1 hd]
  | meanwhile _ more hmore ih =>
    obtain ⟨hσ, hstream, hdeeds⟩ := ih
    refine ⟨hσ, ?_, hdeeds⟩
    rw [hstream, held, held, hmore, List.append_assoc, List.append_assoc]

theorem returned_prefix_taken {d : Deed} (h : d.Accounts) : d.returned <+: d.taken := by
  rw [Deed.returned]
  rcases hr : d.reply with e | data
  · exact List.nil_prefix
  · rw [h.returned data hr]
    exact List.prefix_rfl

theorem returned_eq_taken_iff {d : Deed} (h : d.Accounts) :
    d.returned = d.taken ↔ ¬ d.BreaksOff := by
  rw [Deed.returned]
  rcases hr : d.reply with e | data
  · exact eq_comm.trans (h.lost e hr).2
  · refine iff_of_true (h.returned data hr).symm ?_
    rintro ⟨_, _, _, hfail⟩
    rw [hr] at hfail
    cases hfail

/-- **Where the bytes of the stream go.**  Whatever is read from an open connection and however the
stream comes: every byte has been taken by one of the reads or is still held, in the order of the
stream.  A read that succeeds returns what it takes; one that fails takes nothing, unless it is a
read of a line that breaks off, which takes what has come of the line.  So the reads that have
succeeded and what is held make up the stream without a gap if and only if no read has broken
off. -/
theorem stream_of_reading (hopen : σ₀.1.closed = false) (h : Reading σ₀ deeds stream σ) :
    stream = deeds.flatMap Deed.taken ++ held σ ∧
      (∀ d ∈ deeds, ∀ data, d.reply = .ok data → d.taken = data) ∧
      (∀ d ∈ deeds, ∀ e, d.reply = .error e → 10 ∉ d.taken ∧ (d.taken = [] ↔ ¬ d.BreaksOff)) ∧
      (deeds.flatMap Deed.returned ++ held σ = stream ↔ ∀ d ∈ deeds, ¬ d.BreaksOff) := by
  obtain ⟨-, hstream, hdeeds⟩ := accounts_of_reading hopen h
  refine ⟨hstream, fun d hd => (hdeeds d hd).returned, fun d hd => (hdeeds d hd).lost, ?_⟩
  rw [hstream, List.append_left_inj,
    flatMap_eq_flatMap_iff fun d hd => returned_prefix_taken (hdeeds d hd)]
  exact forall₂_congr fun d hd => returned_eq_taken_iff (hdeeds d hd)

/-- Nothing has come when the first read of a line fails, and so the two reads behind it find the
line whole. -/
theorem stream_of_reading_line :
    let σ₀ : TcpConnection × Wire :=
      ({}, { transport := { incoming := [.bytes 5 [97, 98], .bytes 9 [10, 99]] } })
    ∃ (deeds : List Deed) (σ : TcpConnection × Wire), σ₀.1.closed = false ∧
      Reading σ₀ deeds [97, 98, 10, 99] σ ∧
      deeds.map Deed.reply = [.error (.timeout "tcp read line"), .ok [97], .ok [98, 10]] ∧
      held σ = [99] ∧ ∀ d ∈ deeds, ¬ d.BreaksOff := by
  intro σ₀
  have hreading : Reading σ₀ _ (held σ₀) _ :=
    .read (.read (.read .start (.line (.atInstant 3))) (.bytes 1 .never)) (.line (.atInstant 20))
  exact ⟨_, _, rfl, hreading, by decide +kernel, by decide +kernel,
    (stream_of_reading rfl hreading).2.2.2.1 (by decide +kernel)⟩

/-- **Half a line is lost**: it comes before the time of a read is over and the other half
afterwards, and a second read of the line returns the other half only. -/
theorem not_prefix_of_breaksOff :
    ∃ (deeds : List Deed) (σ : TcpConnection × Wire),
      Reading ({}, { transport := { incoming := [.bytes 0 [97, 98], .bytes 20 [99, 10]] } })
        deeds [97, 98, 99, 10] σ ∧
      deeds.map Deed.reply = [.error (.timeout "tcp read line"), .ok [99, 10]] ∧
      ¬ deeds.flatMap Deed.returned <+: [97, 98, 99, 10] :=
  ⟨_, _, .read (.read .start (.line (.atInstant 10))) (.line .never), by decide +kernel,
    by decide +kernel⟩

end Runs

end ScriptHost.TcpConnection
