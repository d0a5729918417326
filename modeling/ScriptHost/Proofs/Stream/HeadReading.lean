import ScriptHost.Proofs.Stream.HeadGrammar
import ScriptHost.Proofs.Stream.Reading

/-!
# Reading a head from a stream

A head is read byte by byte, up to the first empty line, and nothing behind it is taken.  What comes
of it depends on the bytes of the stream alone: not on how they are cut into arrivals, not on when
these come, and not on whether there is a deadline, as long as that does not pass.

* `Head.Through` — the bytes through the first empty line.
* `Head.ReadsByte` — what reading one byte comes to; both ways of reading a head read their bytes so
  (`Head.readsByte_readSome`, `Head.readsByte_readPlain`).
* `Head.Scanned` — what looking for the empty line comes to, by induction on the bytes that may
  still be read (`Head.readRaw_spec`).
* `Head.Reading` — what the stream makes of the call as a whole (`Head.reading_of_stream`).
-/

set_option autoImplicit false

namespace ScriptHost.Head

/-! ## The end of a head -/

/-- An empty line and the end of the line before. -/
def blankLine : Bytes := [13, 10, 13, 10]

/-- Bytes that end in an empty line and have none before. -/
structure Through (raw : Bytes) : Prop where
  ends : blankLine <:+ raw
  first : ¬ blankLine <:+: raw.dropLast

theorem endsBlank_iff {got : Bytes} : endsBlank got = true ↔ blankLine <:+ got.reverse := by
  have hbegins : blankLine <:+ got.reverse ↔ [10, 13, 10, 13] <+: got := by
    rw [← List.reverse_prefix, List.reverse_reverse]
    rfl
  rw [hbegins, endsBlank.eq_def]
  split
  · exact iff_of_true rfl (List.prefix_append [10, 13, 10, 13] _)
  · rename_i hne
    refine iff_of_false Bool.false_ne_true ?_
    rintro ⟨rest, rfl⟩
    exact hne rest rfl

/-- Only one beginning of a stream is the one through the first empty line. -/
theorem Through.unique {raw raw' rest rest' : Bytes} (h : Through raw) (h' : Through raw')
    (heq : raw ++ rest = raw' ++ rest') : raw = raw' ∧ rest = rest' := by
  have hle {raw raw' : Bytes} (h : Through raw) (h' : Through raw') (hpre : raw <+: raw') :
      raw = raw' := by
    obtain ⟨more, rfl⟩ := hpre
    by_cases hnil : more = []
    · rw [hnil, List.append_nil]
    · refine absurd ?_ h'.first
      rw [List.dropLast_append_of_ne_nil hnil]
      exact h.ends.isInfix.trans (List.prefix_append raw _).isInfix
  have hraw : raw = raw' := by
    rcases List.prefix_or_prefix_of_prefix (List.prefix_append raw rest)
      (heq ▸ List.prefix_append raw' rest') with hpre | hpre
    · exact hle h h' hpre
    · exact (hle h' h hpre).symm
  subst hraw
  exact ⟨rfl, List.append_cancel_left heq⟩

/-! ## One byte -/

/-- What reading one byte of a stream that ends comes to: the byte, or nothing at the end of the
stream, or a failure, of which `Broken` is left. -/
inductive ReadsByte (Good Broken : Wire → Prop) (w : Wire) : Outcome Bytes → Wire → Prop
  | byte {b : UInt8} {w' : Wire} : w.unread = b :: w'.unread → Good w' →
      ReadsByte Good Broken w (.ok [b]) w'
  | ended {w' : Wire} : w.unread = [] → w'.unread = [] → ReadsByte Good Broken w (.ok []) w'
  | broken {e : Failure} {w' : Wire} : Broken w' → ReadsByte Good Broken w (.error e) w'

/-- A way of reading that reads a byte of every good wire. -/
def Bytewise (next : Io Bytes) (Good Broken : Wire → Prop) : Prop :=
  ∀ w, Good w → ReadsByte Good Broken w (next w).1 (next w).2

theorem readsByte_of_reads {Good Broken : Wire → Prop} {w w' : Wire} {d : Deadline}
    {r : Outcome Bytes} (h : w.Reads d 1 r w') (hgood : Good w')
    (hbroken : r.isOk = false → Broken w') : ReadsByte Good Broken w r w' := by
  match r, h with
  | .error e, _ => exact .broken (hbroken rfl)
  | .ok [], h =>
    have hnil : w'.unread = [] := h.drained rfl (.inl rfl)
    exact .ended (h.took.unread.trans hnil) hnil
  | .ok [b], h => exact .byte h.took.unread hgood
  | .ok (_ :: _ :: _), h => exact absurd h.size (by simp [Except.toOption])

/-- Reading a byte before a deadline, on a calm wire that ends. -/
theorem bytewise_readSome (d : Deadline) (operation : String) :
    Bytewise (Io.readSome d operation 1) (fun w => w.Calm ∧ w.transport.ended = true)
      (fun w => d.isExpired w.clock = true) := by
  rintro w ⟨hcalm, hended⟩
  have h : w.Reads d 1 (Io.readSome d operation 1 w).1 (Io.readSome d operation 1 w).2 :=
    Wire.receive_spec Nat.one_pos rfl
  exact readsByte_of_reads h ⟨h.took.calm hcalm, h.took.ended.trans hended⟩
    fun hfail => h.failed hfail hcalm hended

/-- Reading a byte without a deadline, on a wire that ends and brings nothing but bytes. -/
theorem bytewise_readPlain :
    Bytewise (Io.readPlain 1) (fun w => w.Smooth ∧ w.transport.ended = true)
      (fun _ => False) := by
  rintro w ⟨hsmooth, hended⟩
  have h : w.Reads .never 1 (Io.readPlain 1 w).1 (Io.readPlain 1 w).2 := by
    rw [Io.readPlain, Wire.receivePlain_of_smooth w.transport.incoming hsmooth]
    exact Wire.receiveFrom_spec Nat.one_pos w.transport.incoming w rfl
  refine readsByte_of_reads h ⟨h.took.smooth hsmooth, h.took.ended.trans hended⟩ fun hfail => ?_
  exact Bool.false_ne_true (h.failed hfail hsmooth.calm hended)

/-! ## Looking for the empty line -/

/-- What looking for the empty line in some bytes comes to, when `seen` stands before them and at
most `fuel` of them may be taken. -/
inductive Scanned (seen : Bytes) (fuel : Nat) (bytes : Bytes) : Outcome Bytes → Bytes → Prop
  | found {c raw left : Bytes} : raw = seen ++ c → bytes = c ++ left → c.length ≤ fuel →
      Through raw → Scanned seen fuel bytes (.ok raw) left
  | full {message : String} : fuel ≤ bytes.length → ¬ blankLine <:+: seen ++ bytes.take fuel →
      Scanned seen fuel bytes (.error (.exhausted message)) (bytes.drop fuel)
  | ended {message : String} : bytes.length < fuel → ¬ blankLine <:+: seen ++ bytes →
      Scanned seen fuel bytes (.error (.illegalState message)) []

theorem Scanned.cons {seen bytes left : Bytes} {b : UInt8} {fuel : Nat} {r : Outcome Bytes}
    (h : Scanned (seen ++ [b]) fuel bytes r left) :
    Scanned seen (fuel + 1) (b :: bytes) r left := by
  have happend (c : Bytes) : seen ++ [b] ++ c = seen ++ b :: c := List.append_assoc ..
  cases h with
  | found hraw hbytes hlength hthrough =>
    exact .found (hraw.trans (happend _)) (congrArg (b :: ·) hbytes) (Nat.succ_le_succ hlength)
      hthrough
  | full hlength hnot => exact .full (Nat.succ_le_succ hlength) (happend _ ▸ hnot)
  | ended hlength hnot => exact .ended (Nat.succ_lt_succ hlength) (happend _ ▸ hnot)

/-- An empty line somewhere is one at the end or one before. -/
theorem blankLine_isInfix_iff (bytes : Bytes) :
    blankLine <:+: bytes ↔ blankLine <:+ bytes ∨ blankLine <:+: bytes.dropLast := by
  rcases bytes.eq_nil_or_concat with rfl | ⟨bytes, b, rfl⟩
  · exact iff_of_false (by decide) (by decide)
  · rw [List.concat_eq_append, List.dropLast_concat, List.infix_concat_iff]

variable {next : Io Bytes} {Good Broken : Wire → Prop}

/-- **Looking for the empty line** takes the bytes through it, if there is one within the bound. -/
theorem readRaw_spec (hnext : Bytewise next Good Broken) (fuel : Nat) (got : Bytes) {w w' : Wire}
    {r : Outcome Bytes} (hgood : Good w) (hgot : ¬ blankLine <:+: got.reverse.dropLast)
    (h : readRaw next fuel got w = (r, w')) (hlive : ¬ Broken w') :
    Scanned got.reverse fuel w.unread r w'.unread := by
  -- the empty line can only have come with the last byte: before that there was none
  induction fuel generalizing got w with
  | zero =>
    rw [readRaw] at h
    split at h
    · rename_i hends
      cases h
      exact .found (List.append_nil _).symm rfl (Nat.zero_le _) ⟨endsBlank_iff.1 hends, hgot⟩
    · rename_i hends
      cases h
      refine .full (Nat.zero_le _) ?_
      rw [List.take_zero, List.append_nil, blankLine_isInfix_iff, not_or]
      exact ⟨mt endsBlank_iff.2 hends, hgot⟩
  | succ fuel ih =>
    rw [readRaw] at h
    split at h
    · rename_i hends
      cases h
      exact .found (List.append_nil _).symm rfl (Nat.zero_le _) ⟨endsBlank_iff.1 hends, hgot⟩
    · rename_i hends
      have hnot : ¬ blankLine <:+: got.reverse := by
        rw [blankLine_isInfix_iff, not_or]
        exact ⟨mt endsBlank_iff.2 hends, hgot⟩
      rw [Io.bind_apply] at h
      have hbyte := hnext w hgood
      rcases hr : next w with ⟨r₁, w₁⟩
      rw [hr] at h hbyte
      cases hbyte with
      | byte hunread hgood₁ =>
        rw [hunread]
        refine Scanned.cons ?_
        rw [← List.reverse_cons]
        refine ih _ hgood₁ ?_ h
        rwa [List.reverse_cons, List.dropLast_concat]
      | ended hunread hleft =>
        cases h
        rw [hunread, hleft]
        exact .ended (Nat.succ_pos fuel) (by rwa [List.append_nil])
      | broken hbroken =>
        cases h
        exact absurd hbroken hlive

/-! ## The call -/

/-- The bytes of a stream, if its first empty line ends within the bound: those through it, and
those behind it. -/
structure Parts (bytes raw rest : Bytes) : Prop where
  split : bytes = raw ++ rest
  through : Through raw
  bound : raw.length ≤ maxBytes

theorem Parts.unique {bytes raw raw' rest rest' : Bytes} (h : Parts bytes raw rest)
    (h' : Parts bytes raw' rest') : raw = raw' ∧ rest = rest' :=
  h.through.unique h'.through (h.split.symm.trans h'.split)

theorem Parts.isInfix {bytes raw rest : Bytes} (h : Parts bytes raw rest) :
    blankLine <:+: bytes.take maxBytes := by
  have hpre : raw <+: bytes.take maxBytes :=
    List.prefix_take_iff.2 ⟨h.split ▸ List.prefix_append raw rest, h.bound⟩
  exact h.through.ends.isInfix.trans hpre.isInfix

/-- What the bytes of a stream make of a call that reads a head: its outcome and the bytes that it
leaves. -/
structure Reading (bytes : Bytes) (r : Outcome Head) (left : Bytes) : Prop where
  /-- It succeeds if and only if the first empty line ends within the bound and what the bytes
  through it say is a head. -/
  isOk_iff : r.isOk = true ↔
    ∃ raw rest, Parts bytes raw rest ∧ WellFormed (Utf8.decodeLossy raw)
  /-- It returns what the bytes through the first empty line say. -/
  spells {head : Head} : r = .ok head →
    ∃ raw, Parts bytes raw left ∧ Spells (Utf8.decodeLossy raw) head
  /-- It takes the bytes through the first empty line and no others, and finds fault with nothing
  but what they say. -/
  found {raw rest : Bytes} : Parts bytes raw rest →
    left = rest ∧ ∀ e, r = .error e → e.kind = .illegalState
  /-- If no empty line ends within the bound, it takes what there is up to the bound, and fails. -/
  missing : (¬ ∃ raw rest, Parts bytes raw rest) → left = bytes.drop maxBytes ∧
    ∃ e, r = .error e ∧ e.kind = if bytes.length < maxBytes then .illegalState else .exhausted

/-- Without an empty line within the bound, there is nothing to parse. -/
theorem reading_of_missing {bytes left : Bytes} {e : Failure}
    (hnot : ¬ blankLine <:+: bytes.take maxBytes) (hleft : left = bytes.drop maxBytes)
    (hkind : e.kind = if bytes.length < maxBytes then .illegalState else .exhausted) :
    Reading bytes (.error e) left where
  isOk_iff := iff_of_false Bool.false_ne_true fun ⟨_, _, hparts, _⟩ => hnot hparts.isInfix
  spells hok := by cases hok
  found hparts := absurd hparts.isInfix hnot
  missing _ := ⟨hleft, e, rfl, hkind⟩

/-- What has been scanned decides what comes of the call. -/
theorem Scanned.reading {bytes left : Bytes} {r : Outcome Bytes}
    (h : Scanned [] maxBytes bytes r left) :
    Reading bytes (r.bind fun raw => parse (Utf8.decodeLossy raw)) left := by
  cases h with
  | full hlength hnot =>
    exact reading_of_missing hnot rfl (if_neg (Nat.not_lt.2 hlength)).symm
  | ended hlength hnot =>
    refine reading_of_missing ?_ (List.drop_eq_nil_of_le hlength.le).symm (if_pos hlength).symm
    rwa [List.take_of_length_le hlength.le]
  | found hraw hbytes hlength hthrough =>
    rename_i c raw
    obtain rfl : raw = c := hraw
    have hparts : Parts bytes raw left := ⟨hbytes, hthrough, hlength⟩
    refine ⟨?_, fun hok => ⟨raw, hparts, parse_eq_ok_iff.1 hok⟩, fun hparts' => ?_, fun hno => ?_⟩
    · show (parse (Utf8.decodeLossy raw)).isOk = true ↔ _
      rw [isOk_parse_iff]
      constructor
      · exact fun hwell => ⟨raw, left, hparts, hwell⟩
      · rintro ⟨raw', left', hparts', hwell⟩
        obtain ⟨rfl, -⟩ := hparts.unique hparts'
        exact hwell
    · exact ⟨(hparts.unique hparts').2, fun e he => parse_fault he⟩
    · exact absurd ⟨raw, left, hparts⟩ hno

theorem readBy_apply (next : Io Bytes) (w : Wire) :
    readBy next w = ((readRaw next maxBytes [] w).1.bind fun raw => parse (Utf8.decodeLossy raw),
      (readRaw next maxBytes [] w).2) := by
  rw [readBy, Io.bind_apply]
  rcases readRaw next maxBytes [] w with ⟨e | raw, w'⟩
  · rfl
  · dsimp only [Except.bind]
    cases parse (Utf8.decodeLossy raw) <;> rfl

theorem took_readRaw (d : Deadline) (operation : String) (fuel : Nat) (got : Bytes) (w : Wire) :
    ∃ c, w.Took c (readRaw (Io.readSome d operation 1) fuel got w).2 := by
  induction fuel generalizing got w with
  | zero =>
    rw [readRaw]
    split <;> exact ⟨[], .refl w⟩
  | succ fuel ih =>
    rw [readRaw]
    split
    · exact ⟨[], .refl w⟩
    · have hreads : w.Reads d 1 (Io.readSome d operation 1 w).1 (Io.readSome d operation 1 w).2 :=
        Wire.receive_spec Nat.one_pos rfl
      have htook := hreads.took
      rw [Io.bind_apply]
      rcases hr : Io.readSome d operation 1 w with ⟨e | _ | ⟨byte, bytes⟩, w₁⟩ <;> rw [hr] at htook
      · exact ⟨_, htook⟩
      · exact ⟨_, htook⟩
      · obtain ⟨c, hrest⟩ := ih (byte :: got) w₁
        exact ⟨_, htook.trans hrest⟩

/-- Reading a head takes bytes off the stream, and nothing else happens but that time passes. -/
theorem took_read (d : Deadline) (w : Wire) : ∃ c, w.Took c (read d w).2 := by
  rw [read, readBy_apply]
  exact took_readRaw ..

theorem reading_readBy (hnext : Bytewise next Good Broken) {w : Wire} (hgood : Good w)
    (hlive : ¬ Broken (readBy next w).2) :
    Reading w.unread (readBy next w).1 (readBy next w).2.unread := by
  rw [readBy_apply] at hlive ⊢
  exact (readRaw_spec hnext maxBytes [] hgood (by decide) rfl hlive).reading

/-- **Reading a head from a stream.**  The stream ends, and its bytes arrive in whatever chunks.
They alone decide what comes of the call (`Reading`): it succeeds on well-formed heads only, returns
what they say, and takes nothing behind the empty line.  So it is without a deadline, and also
before one that has not passed when the call returns; then delays and interruptions make no
difference, either. -/
theorem reading_of_stream (w : Wire) (hended : w.transport.ended = true) :
    (w.Smooth → Reading w.unread (readPlain w).1 (readPlain w).2.unread) ∧
      ∀ d : Deadline, w.Calm → d.isExpired (read d w).2.clock = false →
        Reading w.unread (read d w).1 (read d w).2.unread := by
  refine ⟨fun hsmooth => ?_, fun d hcalm hlive => ?_⟩
  · exact reading_readBy bytewise_readPlain ⟨hsmooth, hended⟩ not_false
  · exact reading_readBy (bytewise_readSome d _) ⟨hcalm, hended⟩ (Bool.eq_false_iff.1 hlive)

/-- A head cut within a line break and within its empty line.  The chunk in which it ends brings the
first byte of a body, too, and the last chunk comes after the deadline. -/
theorem reading_of_stream_upload :
    let text : Bytes := [112, 117, 116, 32, 47, 32, 72, 84, 84, 80, 47, 49, 13, 10, 65, 58, 32, 98,
      58, 13, 10, 13, 10]
    let w : Wire := { transport := { ended := true, incoming := [.bytes 0 (text.take 13),
      .bytes 3 ((text.drop 13).take 8), .bytes 5 [13, 10, 98], .bytes 9 [111]] } }
    let d := Deadline.atInstant 7
    w.Smooth ∧ w.transport.ended = true ∧ d.isExpired (read d w).2.clock = false ∧
      (readPlain w).1.isOk = true ∧ (readPlain w).2.unread = [98, 111] ∧
      (read d w).1.isOk = true ∧ (read d w).2.unread = [98, 111] := by
  intro text w d
  have hsmooth : w.Smooth := fun a ha => by
    simp only [w, List.mem_cons, List.not_mem_nil, or_false] at ha
    rcases ha with rfl | rfl | rfl | rfl <;> trivial
  have hlive : d.isExpired (read d w).2.clock = false := by
    rw [read, readBy_apply]
    decide +kernel
  have hparts : Parts w.unread text [98, 111] := ⟨by decide, ⟨by decide, by decide⟩, by decide⟩
  have hwell : WellFormed (Utf8.decodeLossy text) := by
    have htext : (Utf8.decodeLossy text).toList = "put / HTTP/1\r\nA: b:\r\n\r\n".toList := by
      decide +kernel
    refine ⟨"put / HTTP/1".toList, ["A: b:".toList, [], []], ?_, ⟨"put", "/", "put".toList,
      "/".toList, "HTTP/1".toList, [], ?_, ?_, rfl, rfl⟩, by decide⟩
    · rw [htext]
      exact lines_eq_iff.1 (by decide +kernel)
    · decide +kernel
    · decide +kernel
  obtain ⟨hplain, hread⟩ := reading_of_stream w rfl
  have h := hplain hsmooth
  have h' := hread d hsmooth.calm hlive
  exact ⟨hsmooth, rfl, hlive, h.isOk_iff.2 ⟨_, _, hparts, hwell⟩, (h.found hparts).1,
    h'.isOk_iff.2 ⟨_, _, hparts, hwell⟩, (h'.found hparts).1⟩

end ScriptHost.Head
