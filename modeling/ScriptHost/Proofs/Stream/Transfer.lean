import ScriptHost.Proofs.Stream.Reading
import ScriptHost.Proofs.Stream.Writing
import ScriptHost.Stream.Link
import Mathlib.Data.List.TakeDrop

/-!
# Transfers in many calls

A transport may move a part of the bytes at a time, keep its caller waiting and be interrupted, in
any order.  Every call begins where the one before it has left off, so what has been moved is always
a beginning of what there is to move, and as long as the answers add up to.

* `Link.Stops` — why a transfer goes no further before all is moved.
* `Link.Sends`, `Link.Fills` — what comes of writing data and of reading so many bytes.
* `Link.transfers_of_answers` — what is accepted and what is read, whatever is answered.
-/

set_option autoImplicit false

namespace ScriptHost.Link

/-! ## Answers -/

namespace Answer

/-- How many bytes are moved, if there are so many to move. -/
def count : Answer → Nat
  | moved _ count => count
  | fault _ _ => 0
  | unlimited _ => 0

variable {a : Answer} {operation : String}

theorem count_of_moved {n : Nat} (h : a.reply operation = .moved n) : a.count = n := by
  cases a with
  | moved delay count => exact Reply.moved.inj h
  | fault delay e =>
    rw [reply] at h
    split at h <;> cases h
  | unlimited e => cases h

theorem count_eq_zero {r : Reply} (h : a.reply operation = r) (hr : ∀ n, r ≠ .moved n) :
    a.count = 0 := by
  cases a with
  | moved delay count => exact absurd h.symm (hr count)
  | fault delay e => rfl
  | unlimited e => rfl

end Answer

/-- How many bytes the answers add up to. -/
def total (answers : List Answer) : Nat := (answers.map Answer.count).sum

@[simp] theorem total_nil : total [] = 0 := rfl

@[simp] theorem total_cons (a : Answer) (answers : List Answer) :
    total (a :: answers) = a.count + total answers := by
  rw [total, total, List.map_cons, List.sum_cons]

@[simp] theorem total_append (first second : List Answer) :
    total (first ++ second) = total first + total second := by
  rw [total, total, total, List.map_append, List.sum_append]

variable {d : Deadline} {operation : String} {size : Nat} {l l' l'' : Link} {used : List Answer}

/-- Why a transfer that has used these answers goes no further, although it is not complete: the
failure that it ends with, or none if it is still under way.  A read may also have found that the
stream is `dry`. -/
inductive Stops (d : Deadline) (operation : String) (starved : IoKind) (dry : Prop)
    (used : List Answer) (l' : Link) : Option Failure → Prop
  /-- There is time left, and there are no answers. -/
  | underway : l'.answers = [] → d.isExpired l'.clock = false →
      Stops d operation starved dry used l' none
  | late : d.isExpired l'.clock = true →
      Stops d operation starved dry used l' (some (.timeout operation))
  | refused {a : Answer} {f : Failure} : used.getLast? = some a → a.reply operation = .failed f →
      Stops d operation starved dry used l' (some f)
  /-- The last answer has moved nothing. -/
  | starved {a : Answer} {n : Nat} : used.getLast? = some a → a.reply operation = .moved n →
      n = 0 ∨ dry → Stops d operation starved dry used l' (some (.ofIoIn operation starved.fault))

theorem Stops.behind {starved : IoKind} {dry : Prop} {f : Option Failure}
    (h : Stops d operation starved dry used l' f) (before : List Answer) :
    Stops d operation starved dry (before ++ used) l' f := by
  have hlast {a : Answer} (ha : used.getLast? = some a) : (before ++ used).getLast? = some a := by
    rw [List.getLast?_append, ha, Option.some_or]
  cases h with
  | underway hanswers hlive => exact .underway hanswers hlive
  | late hlate => exact .late hlate
  | refused ha hreply => exact .refused (hlast ha) hreply
  | starved ha hreply hnone => exact .starved (hlast ha) hreply hnone

theorem map_error_ne_ok {α : Type} (f : Option Failure) (a : α) :
    f.map .error ≠ some (.ok a : Outcome α) := by
  cases f <;> nofun

/-! ## Writing -/

/-- What comes of writing data: it is accepted from its beginning, as much of it as the answers that
have been used add up to.  If that is all of it, then a flush decides, and otherwise there is a
reason for which it is not more. -/
structure Sends (l : Link) (d : Deadline) (operation : String) (data : Bytes)
    (r : Option (Outcome Unit)) (used : List Answer) (l' : Link) : Prop where
  answers : l.answers = used ++ l'.answers
  accepted : l'.accepted = l.accepted ++ data.take (total used)
  unread : l'.unread = l.unread
  whole : data.length ≤ total used → r = some (l.flushed.mapError (.ofIoIn operation))
  short : total used < data.length →
    ∃ f, Stops d operation .writeZero False used l' f ∧ r = f.map .error

namespace Sends

variable {data : Bytes} {r : Option (Outcome Unit)}

/-- Nothing is left to write. -/
theorem nothing (l : Link) :
    Sends l d operation [] (some (l.flushed.mapError (.ofIoIn operation))) [] l where
  answers := rfl
  accepted := by rw [List.take_nil, List.append_nil]
  unread := rfl
  whole _ := rfl
  short h := absurd h (Nat.not_lt_zero _)

/-- Nothing has been accepted, and nothing will be. -/
theorem stopped {f : Option Failure} (hstop : Stops d operation .writeZero False used l' f)
    (hr : r = f.map .error) (htotal : total used = 0) (hanswers : l.answers = used ++ l'.answers)
    (haccepted : l'.accepted = l.accepted) (hunread : l'.unread = l.unread)
    (hdata : ¬ data.isEmpty = true) : Sends l d operation data r used l' where
  answers := hanswers
  accepted := by rw [htotal, List.take_zero, List.append_nil, haccepted]
  unread := hunread
  whole h := by
    rw [htotal, Nat.le_zero, List.length_eq_zero_iff, ← List.isEmpty_iff] at h
    exact absurd h hdata
  short _ := ⟨f, hstop, hr⟩

/-- An answer has been used that accepts so much of the data, and the rest is written behind it. -/
theorem further {a : Answer} {n : Nat} (h : Sends l'' d operation (data.drop n) r used l')
    (hcount : a.count = n) (hanswers : l.answers = a :: l''.answers)
    (haccepted : l''.accepted = l.accepted ++ data.take n) (hunread : l''.unread = l.unread)
    (hflushed : l''.flushed = l.flushed) : Sends l d operation data r (a :: used) l' where
  answers := by rw [hanswers, h.answers, List.cons_append]
  accepted := by rw [h.accepted, haccepted, List.append_assoc, total_cons, hcount, List.take_add]
  unread := h.unread.trans hunread
  whole hle := by
    rw [total_cons] at hle
    rw [← hflushed]
    exact h.whole (by rw [List.length_drop]; omega)
  short hlt := by
    rw [total_cons] at hlt
    obtain ⟨f, hstop, hr⟩ := h.short (by rw [List.length_drop]; omega)
    exact ⟨f, hstop.behind [a], hr⟩

/-- **A write succeeds if all of the data has been accepted** and the flush succeeds, and only
then. -/
theorem eq_ok_iff (h : Sends l d operation data r used l') :
    r = some (.ok ()) ↔ l'.accepted = l.accepted ++ data ∧ l.flushed = .ok () := by
  have hall : l'.accepted = l.accepted ++ data ↔ data.length ≤ total used := by
    rw [h.accepted, List.append_right_inj, List.take_eq_self_iff]
  rw [hall]
  constructor
  · intro hr
    have hle : data.length ≤ total used := by
      by_contra hlt
      obtain ⟨f, -, hf⟩ := h.short (Nat.lt_of_not_le hlt)
      exact map_error_ne_ok f () (hf.symm.trans hr)
    refine ⟨hle, ?_⟩
    have hflush := h.whole hle
    rw [hr] at hflush
    cases hl : l.flushed with
    | ok => rfl
    | error e =>
      rw [hl] at hflush
      cases hflush
  · rintro ⟨hle, hflush⟩
    rw [h.whole hle, hflush]
    rfl

end Sends

theorem sends_writeAllBy (answers : List Answer) (l : Link) (data : Bytes) :
    ∃ used, Sends { l with answers } d operation data (l.writeAllBy d operation data answers).1 used
      (l.writeAllBy d operation data answers).2 := by
  -- the ways in which a round can end: nothing is left, no time, no answer, and then one for each
  -- reply
  fun_induction writeAllBy l d operation data answers with
  | case1 answers l data hempty =>
    rw [List.isEmpty_iff.1 hempty]
    exact ⟨[], .nothing { l with answers }⟩
  | case2 answers l data hdata hexpired =>
    exact ⟨[], .stopped (.late hexpired) rfl rfl rfl rfl rfl hdata⟩
  | case3 l data hdata hlive =>
    exact ⟨[], .stopped (.underway rfl (Bool.eq_false_iff.2 hlive)) rfl rfl rfl rfl rfl hdata⟩
  | case4 l data hdata _ a answers _ hreply =>
    have htotal : total [a] = 0 := a.count_of_moved hreply
    exact ⟨[a], .stopped (.starved rfl hreply (.inl rfl)) rfl htotal rfl rfl rfl hdata⟩
  | case5 l data _ _ a answers l₁ n _ hreply ih =>
    obtain ⟨used, h⟩ := ih
    exact ⟨a :: used, h.further (a.count_of_moved hreply) rfl rfl rfl rfl⟩
  | case6 l data _ _ a answers l₁ hreply ih =>
    obtain ⟨used, h⟩ := ih
    have hcount : a.count = 0 := a.count_eq_zero hreply nofun
    exact ⟨a :: used, h.further (n := 0) hcount rfl (List.append_nil _).symm rfl rfl⟩
  | case7 l data hdata _ a answers _ f hreply =>
    have htotal : total [a] = 0 := a.count_eq_zero hreply nofun
    exact ⟨[a], .stopped (.refused rfl hreply) rfl htotal rfl rfl rfl hdata⟩

/-! ## Reading -/

/-- What comes of one read of at most `size` bytes: what the last answer gives, or nothing. -/
inductive Brings (l : Link) (d : Deadline) (operation : String) (size : Nat)
    (r : Option (Outcome Bytes)) (used : List Answer) (l' : Link) : Prop
  | chunk {a : Answer} : used.getLast? = some a → a.reply operation = .moved (total used) →
      r = some (.ok (l.unread.take (min (total used) size))) →
      l'.unread = l.unread.drop (min (total used) size) → Brings l d operation size r used l'
  | stopped {f : Option Failure} : Stops d operation .unexpectedEof (l'.unread = []) used l' f →
      r = f.map .error → total used = 0 → l'.unread = l.unread → Brings l d operation size r used l'

theorem Brings.further {a : Answer} {r : Option (Outcome Bytes)}
    (h : Brings l'' d operation size r used l') (hcount : a.count = 0)
    (hunread : l''.unread = l.unread) : Brings l d operation size r (a :: used) l' := by
  have htotal : total (a :: used) = total used := by rw [total_cons, hcount, Nat.zero_add]
  cases h with
  | @chunk b hlast hreply hr hrest =>
    rw [← htotal, hunread] at hr hrest
    refine .chunk (a := b) ?_ (by rw [htotal, hreply]) hr hrest
    rw [List.getLast?_cons, hlast, Option.getD_some]
  | stopped hstop hr hzero hrest =>
    exact .stopped (hstop.behind [a]) hr (htotal.trans hzero) (hrest.trans hunread)

theorem Brings.of_ok {chunk : Bytes} (h : Brings l d operation size (some (.ok chunk)) used l') :
    chunk = l.unread.take (min (total used) size) ∧
      l'.unread = l.unread.drop (min (total used) size) ∧
      ∃ a, used.getLast? = some a ∧ a.reply operation = .moved (total used) := by
  cases h with
  | @chunk a hlast hreply hr hunread =>
    injection hr with hr
    injection hr with hr
    exact ⟨hr, hunread, a, hlast, hreply⟩
  | @stopped f _ hr => exact absurd hr.symm (map_error_ne_ok f chunk)

theorem brings_readSomeBy (d : Deadline) (operation : String) (size : Nat) (answers : List Answer)
    (l : Link) :
    ∃ used, answers = used ++ (l.readSomeBy d operation size answers).2.answers ∧
      (l.readSomeBy d operation size answers).2.accepted = l.accepted ∧
      Brings l d operation size (l.readSomeBy d operation size answers).1 used
        (l.readSomeBy d operation size answers).2 := by
  fun_induction readSomeBy l d operation size answers with
  | case1 answers l hexpired =>
    exact ⟨[], rfl, rfl, .stopped (.late hexpired) rfl rfl rfl⟩
  | case2 l hlive =>
    exact ⟨[], rfl, rfl, .stopped (.underway rfl (Bool.eq_false_iff.2 hlive)) rfl rfl rfl⟩
  | case3 l _ a answers l₁ count hreply n =>
    have htotal : total [a] = count := a.count_of_moved hreply
    refine ⟨[a], rfl, rfl, .chunk (a := a) rfl (by rw [htotal, hreply]) ?_ ?_⟩ <;> rw [htotal]
  | case4 l _ a answers l₁ hreply ih =>
    obtain ⟨used, hanswers, haccepted, h⟩ := ih
    have hcount : a.count = 0 := a.count_eq_zero hreply nofun
    exact ⟨a :: used, congrArg (a :: ·) hanswers, haccepted, h.further hcount rfl⟩
  | case5 l _ a answers l₁ f hreply =>
    have htotal : total [a] = 0 := a.count_eq_zero hreply nofun
    exact ⟨[a], rfl, rfl, .stopped (.refused rfl hreply) rfl htotal rfl⟩

theorem brings_readSome {r : Option (Outcome Bytes)} (h : l.readSome d operation size = (r, l')) :
    ∃ used, l.answers = used ++ l'.answers ∧ l'.accepted = l.accepted ∧
      Brings l d operation size r used l' := by
  have hbrings := brings_readSomeBy d operation size l.answers l
  rw [readSome] at h
  rwa [h] at hbrings

/-- What comes of reading `size` bytes behind those that have been got before: they are taken from
the beginning of the stream, as many as the answers that have been used add up to.  If that is all
of them, then they are the result, and otherwise there is a reason for which it is not more. -/
structure Fills (l : Link) (d : Deadline) (operation : String) (size : Nat) (got : Bytes)
    (r : Option (Outcome Bytes)) (used : List Answer) (l' : Link) : Prop where
  answers : l.answers = used ++ l'.answers
  accepted : l'.accepted = l.accepted
  unread : l'.unread = l.unread.drop (min (total used) size)
  whole : size ≤ total used → size ≤ l.unread.length → r = some (.ok (got ++ l.unread.take size))
  short : total used < size ∨ l.unread.length < size →
    ∃ f, Stops d operation .unexpectedEof (l'.unread = []) used l' f ∧ r = f.map .error

namespace Fills

variable {got : Bytes} {r : Option (Outcome Bytes)}

/-- Nothing is left to read. -/
theorem nothing (l : Link) (got : Bytes) : Fills l d operation 0 got (some (.ok got)) [] l where
  answers := rfl
  accepted := rfl
  unread := rfl
  whole _ _ := by rw [List.take_zero, List.append_nil]
  short h := absurd h (by omega)

/-- Nothing more has been taken, and nothing will be. -/
theorem stopped {f : Option Failure}
    (hstop : Stops d operation .unexpectedEof (l'.unread = []) used l' f) (hr : r = f.map .error)
    (hanswers : l.answers = used ++ l'.answers) (haccepted : l'.accepted = l.accepted)
    (hunread : l'.unread = l.unread.drop (min (total used) size))
    (hshort : total used < size ∨ l.unread.length < size) :
    Fills l d operation size got r used l' where
  answers := hanswers
  accepted := haccepted
  unread := hunread
  whole _ _ := absurd hshort (by omega)
  short _ := ⟨f, hstop, hr⟩

/-- A chunk has been read, and the rest is read behind it. -/
theorem further {chunk : Bytes} {before : List Answer}
    (h : Fills l'' d operation (size - chunk.length) (got ++ chunk) r used l')
    (hanswers : l.answers = before ++ l''.answers) (haccepted : l''.accepted = l.accepted)
    (hchunk : chunk = l.unread.take (min (total before) size))
    (hunread : l''.unread = l.unread.drop (min (total before) size)) :
    Fills l d operation size got r (before ++ used) l' := by
  -- the chunk is shorter than the answer says where the stream is
  have hlength : chunk.length = min (min (total before) size) l.unread.length := by
    rw [hchunk, List.length_take]
  have hrest : l''.unread.length = l.unread.length - min (total before) size := by
    rw [hunread, List.length_drop]
  refine ⟨?_, h.accepted.trans haccepted, ?_, fun htotal hsize => ?_, fun hshort => ?_⟩
  · rw [hanswers, h.answers, List.append_assoc]
  · rw [h.unread, hunread, List.drop_drop, List.drop_eq_drop_iff, total_append]
    omega
  · rw [total_append] at htotal
    have hall : l.unread.take size = chunk ++ l''.unread.take (size - chunk.length) := by
      have hn : chunk.length = min (total before) size := by omega
      rw [hunread, hn, hchunk, ← List.take_add]
      congr 1
      omega
    rw [h.whole (by omega) (by omega), hall, List.append_assoc]
  · rw [total_append] at hshort
    obtain ⟨f, hstop, hr⟩ := h.short (by omega)
    exact ⟨f, hstop.behind before, hr⟩

/-- **A read of so many bytes succeeds with the next bytes of the stream**, and if it has taken so
many then it succeeds. -/
theorem eq_ok_iff (h : Fills l d operation size [] r used l') {buffer : Bytes} :
    r = some (.ok buffer) ↔ l.unread = buffer ++ l'.unread ∧ buffer.length = size := by
  constructor
  · intro hr
    have hfull : size ≤ total used ∧ size ≤ l.unread.length := by
      by_contra hshort
      obtain ⟨f, -, hf⟩ := h.short (by omega)
      exact map_error_ne_ok f buffer (hf.symm.trans hr)
    have hwhole := h.whole hfull.1 hfull.2
    rw [hr, List.nil_append] at hwhole
    obtain rfl : buffer = l.unread.take size := by injection hwhole with hok; injection hok
    refine ⟨?_, List.length_take_of_le hfull.2⟩
    rw [h.unread, Nat.min_eq_right hfull.1, List.take_append_drop]
  · rintro ⟨hunread, rfl⟩
    have hlength := congrArg List.length hunread
    rw [h.unread, List.length_append, List.length_drop] at hlength
    rw [h.whole (by omega) (by omega), hunread, List.take_left, List.nil_append]

end Fills

/-- A read that brings nothing is the last one. -/
theorem Brings.fills {got : Bytes} {r : Option (Outcome Bytes)}
    (h : Brings l d operation size r used l') (hr : ∀ chunk, r ≠ some (.ok chunk))
    (hsize : size ≠ 0)
    (hanswers : l.answers = used ++ l'.answers) (haccepted : l'.accepted = l.accepted) :
    Fills l d operation size got r used l' := by
  cases h with
  | chunk _ _ hchunk => exact absurd hchunk (hr _)
  | stopped hstop hfail hzero hunread =>
    refine .stopped hstop hfail hanswers haccepted ?_ (by omega)
    rw [hunread, hzero, Nat.zero_min, List.drop_zero]

theorem fills_readMore (l : Link) (missing : Nat) (got : Bytes) :
    ∃ used, Fills l d operation missing got (l.readMore d operation missing got).1 used
      (l.readMore d operation missing got).2 := by
  fun_induction readMore l d operation missing got with
  | case1 l got => exact ⟨[], .nothing l got⟩
  | case2 l missing got hmissing l₁ hread =>
    obtain ⟨used, hanswers, haccepted, h⟩ := brings_readSome hread
    obtain ⟨hnil, hunread, a, hlast, hreply⟩ := h.of_ok
    have hnone : total used = 0 ∨ l.unread = [] :=
      (List.take_eq_nil_iff.1 hnil.symm).imp_left (by omega)
    refine ⟨used, .stopped (.starved hlast hreply ?_) rfl hanswers haccepted hunread ?_⟩
    · exact hnone.imp_right fun hdry => by rw [hunread, hdry, List.drop_nil]
    · refine hnone.imp (by omega) fun hdry => ?_
      rw [hdry]
      exact Nat.pos_of_ne_zero hmissing
  | case3 l missing got _ chunk l₁ hread _ ih =>
    obtain ⟨before, hanswers, haccepted, h⟩ := brings_readSome hread
    obtain ⟨hchunk, hunread, -⟩ := h.of_ok
    obtain ⟨used, hrest⟩ := ih
    exact ⟨before ++ used, hrest.further hanswers haccepted hchunk hunread⟩
  | case4 l missing got hmissing f l₁ hread =>
    obtain ⟨used, hanswers, haccepted, h⟩ := brings_readSome hread
    exact ⟨used, h.fills (by simp) hmissing hanswers haccepted⟩
  | case5 l missing got hmissing l₁ hread =>
    obtain ⟨used, hanswers, haccepted, h⟩ := brings_readSome hread
    exact ⟨used, h.fills (by simp) hmissing hanswers haccepted⟩

/-! ## Transfers -/

/-- So it is with a read of so many bytes from a wire. -/
theorem ok_iff_of_readsFull {w w' : Wire} {r : Outcome Bytes}
    (h : Io.ReadsFull w d operation size r w') {buffer : Bytes} :
    r = .ok buffer ↔ w.unread = buffer ++ w'.unread ∧ buffer.length = size := by
  cases h with
  | full htook hlength =>
    rw [htook.unread, List.append_left_inj]
    constructor
    · rintro ⟨⟩
      exact ⟨rfl, hlength⟩
    · rintro ⟨rfl, -⟩
      rfl
  | broken htook hlength =>
    rw [htook.unread, List.append_left_inj]
    refine ⟨nofun, ?_⟩
    rintro ⟨rfl, hsize⟩
    omega

/-- **Nothing is skipped and nothing is moved twice**, whatever a transport answers and whenever it
does.  What a write gets accepted is a beginning of its data, as much as the answers add up to; it
succeeds if and only if that is all of the data and the flush is in order.  What a read of so many
bytes takes is a beginning of the stream, as much as the answers add up to but no more than it asks
for; it succeeds if and only if it has taken so many, and these are its result.  A call that has not
come so far is out of time, or its last answer is the reason, or it is still under way.

A call on a wire gets accepted and takes just as much. -/
theorem transfers_of_answers (d : Deadline) (operation : String) :
    (∀ (l : Link) (data : Bytes), ∃ r used l', l.writeAll d operation data = (r, l') ∧
      Sends l d operation data r used l' ∧
      (r = some (.ok ()) ↔ l'.accepted = l.accepted ++ data ∧ l.flushed = .ok ())) ∧
    (∀ (l : Link) (size : Nat), ∃ r used l', l.readFull d operation size = (r, l') ∧
      Fills l d operation size [] r used l' ∧
      ∀ buffer, r = some (.ok buffer) ↔ l.unread = buffer ++ l'.unread ∧ buffer.length = size) ∧
    (∀ (w : Wire) (data : Bytes), ∃ r w', w.send d operation data = (r, w') ∧
      Wire.Accepts w data r w') ∧
    ∀ (w : Wire) (size : Nat), ∃ r w', Io.readFull d operation size w = (r, w') ∧
      ∀ buffer, r = .ok buffer ↔ w.unread = buffer ++ w'.unread ∧ buffer.length = size := by
  refine ⟨fun l data => ?_, fun l size => ?_, fun w data => ?_, fun w size => ?_⟩
  · obtain ⟨used, h⟩ := sends_writeAllBy l.answers l data
    exact ⟨_, used, _, rfl, h, h.eq_ok_iff⟩
  · obtain ⟨used, h⟩ := fills_readMore l size []
    exact ⟨_, used, _, rfl, h, fun _ => h.eq_ok_iff⟩
  · exact ⟨_, _, rfl, w.send_accepts d operation data⟩
  · exact ⟨_, _, rfl, fun _ => ok_iff_of_readsFull (Io.readFull_spec rfl)⟩

/-- Two bytes are accepted, then none for some time, and then as many as there are. -/
example :
    let l : Link := { answers := [.moved 3 2, .fault 4 IoKind.wouldBlock.fault,
      .fault 0 IoKind.interrupted.fault, .moved 1 9, .moved 0 1] }
    let (r, l') := l.writeAll (.atInstant 9) "write" [1, 2, 3, 4, 5]
    r = some (.ok ()) ∧ l'.accepted = [1, 2, 3, 4, 5] ∧ l'.answers = [.moved 0 1] :=
  ⟨rfl, rfl, rfl⟩

end ScriptHost.Link
