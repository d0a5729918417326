import Mathlib.Data.List.Basic
import ScriptHost.Stream.Parties

/-!
# What crosses a connection in memory

Bytes are written in chunks and read in parts that need not fit them, by two parties that act at the
same time, until an end is closed or dropped.  Between a write and a read the bytes are in one of
two places: in the chunks that have come and have not been read, or with a call that reads up to the
end of the stream and is not over.  So at any time what has been written is what has been read, what
such a call has got, and what is still there (`Direction.stream`).

* `Transport.Carried` — what a call does to the stream that one of the ends reads.
* `Direction` — what holds of the two parties in one of the directions; every step keeps it
  (`Direction.step`).
* `Parties.bytes_of_run` — what the calls of two parties come to, whatever they do.
* `Parties.Run.read` — what `Duplex.read` gives to a party that reads alone.
-/

set_option autoImplicit false

namespace ScriptHost

/-! ## Streams -/

namespace Transport

/-- Nothing is incoming but bytes, and no chunk is empty. -/
def Solid (t : Transport) : Prop :=
  ∀ a ∈ t.incoming, ∃ instant data, a = .bytes instant data ∧ data ≠ []

/-- Bytes are taken from the front of a stream and others are put behind it, and it may be ended. -/
structure Carried (t t' : Transport) (got put : Bytes) (closes : Prop) : Prop where
  unread : t.unread ++ put = got ++ t'.unread
  solid : t.Solid → t'.Solid
  ended : t'.ended = true ↔ t.ended = true ∨ closes

variable {t : Transport}

theorem carried_self (t : Transport) {closes : Prop} (h : ¬ closes) : Carried t t [] [] closes :=
  ⟨List.append_nil _, id, (or_iff_left h).symm⟩

theorem carried_deliver (t : Transport) (instant : Nat) (data : Bytes) :
    Carried t (t.deliver instant data) [] data False := by
  rw [deliver]
  split
  · rename_i hempty
    rw [List.isEmpty_iff.1 hempty]
    exact carried_self t not_false
  · rename_i hdata
    refine ⟨?_, fun hsolid a ha => ?_, (or_iff_left not_false).symm⟩
    · simp [unread]
    · rcases List.mem_append.1 ha with ha | ha
      · exact hsolid a ha
      · exact ⟨instant, data, List.mem_singleton.1 ha, mt List.isEmpty_iff.2 hdata⟩

/-- A stream is ended behind what is there. -/
theorem carried_end {t' : Transport} (h : t'.incoming = t.incoming) (hended : t'.ended = true) :
    Carried t t' [] [] True where
  unread := by rw [List.append_nil, List.nil_append, unread, unread, h]
  solid hsolid := by rwa [Solid, h]
  ended := ⟨fun _ => .inr trivial, fun _ => hended⟩

theorem carried_close (t : Transport) : Carried t t.close [] [] True := carried_end rfl rfl

theorem carried_abandon (t : Transport) : Carried t t.abandon [] [] True := carried_end rfl rfl

/-- All that is there is taken. -/
theorem carried_all (t : Transport) : Carried t { t with incoming := [] } t.unread [] False :=
  ⟨rfl, fun _ _ h => absurd h List.not_mem_nil, (or_iff_left not_false).symm⟩

/-- A part of the first chunk is taken. -/
theorem carried_take {instant : Nat} {data : Bytes} {rest : List Arrival}
    (h : t.incoming = .bytes instant data :: rest) (size : Nat) :
    Carried t { t with incoming :=
      if (data.drop size).isEmpty then rest else .bytes instant (data.drop size) :: rest }
      (data.take size) [] False := by
  have hdata : data.take size ++ data.drop size = data := List.take_append_drop size data
  refine ⟨?_, fun hsolid a ha => ?_, (or_iff_left not_false).symm⟩
  · rw [List.append_nil, unread, h, unread]
    split
    · rename_i hempty
      rw [List.isEmpty_iff.1 hempty, List.append_nil] at hdata
      rw [List.flatMap_cons, hdata]
    · rw [List.flatMap_cons, List.flatMap_cons, ← List.append_assoc, hdata]
  · rw [Solid, h] at hsolid
    obtain ⟨-, hrest⟩ := List.forall_mem_cons.1 hsolid
    dsimp only at ha
    split at ha
    · exact hrest a ha
    · rename_i hleft
      rcases List.mem_cons.1 ha with rfl | ha
      · exact ⟨instant, _, rfl, mt List.isEmpty_iff.2 hleft⟩
      · exact hrest a ha

end Transport

namespace Duplex

open Transport (Carried)

variable {c : Duplex} {side s : Side}

/-! ## Ends -/

theorem Side.other_ne (side : Side) : side.other ≠ side := by cases side <;> exact nofun

theorem Side.eq_other_comm {s side : Side} : side = s.other ↔ s = side.other := by
  cases s <;> cases side <;> decide

theorem Side.ne_iff {s side : Side} : s ≠ side ↔ s = side.other := by
  cases s <;> cases side <;> decide

theorem get_set (c : Duplex) (e : End) (side s : Side) :
    (c.set e side).get s = if s = side then e else c.get s := by
  cases side <;> cases s <;> rfl

theorem get_modify (c : Duplex) (side : Side) (f : End → End) (s : Side) :
    (c.modify side f).get s = if s = side then f (c.get s) else c.get s := by
  rw [modify, get_set]
  split
  · rename_i h
    rw [h]
  · rfl

/-- The stream that an end reads. -/
def stream (c : Duplex) (side : Side) : Transport := (c.get side).transport

theorem stream_closeWrite (c : Duplex) (side s : Side) :
    (c.closeWrite side).stream s = if s = side.other then (c.stream s).close else c.stream s := by
  rw [closeWrite, stream, get_modify, get_modify, stream]
  split_ifs <;> rfl

theorem stream_drop (c : Duplex) (side s : Side) :
    (c.drop side).stream s = if s = side.other then (c.stream s).abandon else c.stream s := by
  rw [drop, stream, get_modify, get_modify, stream]
  split_ifs <;> rfl

theorem stream_setReadTimeout (c : Duplex) (side : Side) (limit : Option Nat) (s : Side) :
    (c.setReadTimeout side limit).stream s = c.stream s := by
  rw [setReadTimeout, stream, get_modify, stream]
  split <;> rfl

theorem stream_readToClose (c : Duplex) (side s : Side) :
    (c.readToClose side).2.stream s =
      if s = side then { c.stream s with incoming := [] } else c.stream s := by
  rw [readToClose, stream, get_modify, stream]
  split <;> rfl

/-- A write fails and changes nothing, or it puts its data behind what is there for the other
end. -/
theorem write_cases (c : Duplex) (side : Side) (data : Bytes) :
    (∃ fault, c.write side data = (.error fault, c)) ∨
      ∃ c', c.write side data = (.ok data.length, c') ∧
        ∀ s, c'.stream s =
          if s = side.other then (c.stream s).deliver c.clock.now data else c.stream s := by
  rw [write]
  split
  · exact .inl ⟨_, rfl⟩
  · split
    · rename_i hempty
      obtain rfl := List.isEmpty_iff.1 hempty
      exact .inr ⟨c, rfl, fun s => (ite_self _).symm⟩
    · split
      · exact .inl ⟨_, rfl⟩
      · refine .inr ⟨_, rfl, fun s => ?_⟩
        rw [stream, get_modify, stream]
        split <;> rfl

theorem stream_set (c : Duplex) (clock : Clock) (t : Transport) (side s : Side) :
    ({ c with clock }.set { c.get side with transport := t } side).stream s =
      if s = side then t else c.stream s := by
  rw [stream, get_set, stream]
  split <;> rfl

/-- **A read that need not wait** takes bytes from the front of what is there, and none only if none
are wanted or if the other end has closed and nothing is left. -/
theorem read_of_ready {size : Nat} (h : size = 0 ∨ c.isReady side = true)
    (hsolid : (c.stream side).Solid) :
    ∃ data c', c.read side size = (.ok data, c') ∧ data.length ≤ size ∧
      (data = [] → size ≠ 0 → (c.stream side).ended = true ∧ (c.stream side).unread = []) ∧
      ∀ s, Carried (c.stream s) (c'.stream s) (if s = side then data else []) [] False := by
  by_cases hsize : size = 0
  · refine ⟨[], c, if_pos hsize, Nat.zero_le _, fun _ hne => absurd hsize hne, fun s => ?_⟩
    rw [ite_self]
    exact Transport.carried_self _ not_false
  have hready := h.resolve_left hsize
  have hread : c.read side size = _ := if_neg hsize
  rw [hready] at hread
  cases hin : (c.get side).transport.incoming with
  | nil =>
    have hended : (c.get side).transport.ended = true := by simpa [isReady, hin] using hready
    have hunread : (c.stream side).unread = [] := by rw [Transport.unread, stream, hin]; rfl
    simp only [hin, Wire.receiveFrom, hended, if_true] at hread
    refine ⟨[], _, hread, Nat.zero_le _, fun _ _ => ⟨hended, hunread⟩, fun s => ?_⟩
    rw [stream_set, ite_self]
    split
    · rename_i h
      have hall := Transport.carried_all (c.stream side)
      rw [hunread] at hall
      simpa only [h, stream, hended] using hall
    · exact Transport.carried_self _ not_false
  | cons a rest =>
    obtain ⟨instant, data, rfl, hdata⟩ := hsolid a (hin ▸ List.mem_cons_self)
    have hsome : data.isEmpty = false := by simpa using hdata
    simp only [hin, Wire.receiveFrom, Wire.tooLate, Deadline.never, Deadline.expiry?, if_true,
      List.foldl_nil, Bool.false_eq_true, if_false, hsome] at hread
    refine ⟨data.take size, _, hread, List.length_take_le .., fun hnil _ => ?_, fun s => ?_⟩
    · simp [hsize, hdata] at hnil
    · rw [stream_set]
      split
      · rename_i h
        rw [h]
        exact Transport.carried_take hin size
      · exact Transport.carried_self _ not_false

/-! ## What is over -/

/-- The bytes that a call has written. -/
def Event.put (e : Event) : Bytes :=
  match e.call, e.reply with
  | .write data, .written (.ok n) => data.take n
  | _, _ => []

/-- The bytes that a call has read. -/
def Event.got (e : Event) : Bytes :=
  match e.reply with
  | .read (.ok data) | .rest data => data
  | _ => []

/-- A party will write nothing more. -/
def Event.Closes (e : Event) : Prop :=
  match e.call with
  | .closeWrite | .drop => True
  | _ => False

/-- What a party has written, in order. -/
def written (h : List Event) (side : Side) : Bytes := (h.filter (·.side = side)).flatMap Event.put

/-- What a party has read, in order. -/
def taken (h : List Event) (side : Side) : Bytes := (h.filter (·.side = side)).flatMap Event.got

/-- A party has closed its end for writing, or dropped it. -/
def Closed (h : List Event) (side : Side) : Prop := ∃ e ∈ h, e.side = side ∧ e.Closes

variable {h es : List Event}

theorem written_append (h es : List Event) (side : Side) :
    written (h ++ es) side = written h side ++ written es side := by
  rw [written, List.filter_append, List.flatMap_append, written, written]

theorem taken_append (h es : List Event) (side : Side) :
    taken (h ++ es) side = taken h side ++ taken es side := by
  rw [taken, List.filter_append, List.flatMap_append, taken, taken]

theorem closed_append : Closed (h ++ es) side ↔ Closed h side ∨ Closed es side := by
  simp only [Closed, List.mem_append, or_and_right, exists_or]

theorem written_singleton (e : Event) (side : Side) :
    written [e] side = if e.side = side then e.put else [] := by
  by_cases h : e.side = side <;> simp [written, h]

theorem taken_singleton (e : Event) (side : Side) :
    taken [e] side = if e.side = side then e.got else [] := by
  by_cases h : e.side = side <;> simp [taken, h]

theorem closed_singleton {e : Event} : Closed [e] side ↔ e.side = side ∧ e.Closes := by
  simp [Closed]

/-! ## Two parties -/

namespace Parties

variable {p p' : Parties} {label : Label} {e : Option Event}

/-- What a call that reads up to the end of the stream has got. -/
def heldBy : Option Waiting → Bytes
  | some (.rest got) => got
  | _ => []

/-- What a party holds back for a read that goes on. -/
def held (p : Parties) (side : Side) : Bytes := heldBy (p.waiting side)

theorem held_setWaiting (p : Parties) (side : Side) (w : Option Waiting) (s : Side) :
    (p.setWaiting side w).held s = if s = side then heldBy w else p.held s := by
  rw [held, setWaiting]
  dsimp only
  split <;> rfl

/-- What a party that waits comes to when it looks. -/
inductive Looked (p : Parties) (side : Side) : Waiting → Option Event → Parties → Prop
  | read {size : Nat} {d : Deadline} {data : Bytes} {duplex : Duplex} : data.length ≤ size →
      (data = [] → size ≠ 0 →
        (p.duplex.stream side).ended = true ∧ (p.duplex.stream side).unread = []) →
      (∀ s, Carried (p.duplex.stream s) (duplex.stream s) (if s = side then data else [])
        [] False) →
      Looked p side (.read size d) (some ⟨side, .read size, .read (.ok data)⟩)
        ({ p with duplex }.setWaiting side none)
  | last {got : Bytes} : (p.duplex.stream side).ended = true →
      Looked p side (.rest got)
        (some ⟨side, .readToClose, .rest (got ++ (p.duplex.stream side).unread)⟩)
        ({ p with duplex := (p.duplex.readToClose side).2 }.setWaiting side none)
  | further {got : Bytes} :
      Looked p side (.rest got) none
        ({ p with duplex := (p.duplex.readToClose side).2 }.setWaiting side
          (some (.rest (got ++ (p.duplex.stream side).unread))))

theorem looked_of_look {w : Waiting} (hsolid : (p.duplex.stream side).Solid)
    (hlook : p.look side w = some (e, p')) : Looked p side w e p' := by
  cases w with
  | read size d =>
    rw [look] at hlook
    split at hlook
    · rename_i hgo
      rw [Bool.or_eq_true, decide_eq_true_eq] at hgo
      obtain ⟨data, duplex, hread, hsize, hnil, hcarried⟩ := read_of_ready hgo hsolid
      rw [hread] at hlook
      cases hlook
      exact .read hsize hnil hcarried
    · cases hlook
  | rest got =>
    rw [look] at hlook
    dsimp only at hlook
    split at hlook
    · rename_i hended
      cases hlook
      refine .last ?_
      have hstream := congrArg Transport.ended (p.duplex.stream_readToClose side side)
      rw [if_pos rfl] at hstream
      exact hstream.symm.trans hended
    · cases hlook
      exact .further

/-- A read gives up only if its time is over, and changes nothing. -/
theorem giveUp_cases {w : Waiting} (h : p.giveUp side w = some (e, p')) :
    ∃ size d, w = .read size d ∧ e = some ⟨side, .read size, .read (.error readTimedOut)⟩ ∧
      p' = p.setWaiting side none := by
  cases w with
  | rest got => cases h
  | read size d =>
    rw [giveUp] at h
    split at h
    · cases h
      exact ⟨size, d, rfl, rfl, rfl⟩
    · cases h

/-- What holds of the bytes that one of the parties reads. -/
structure Direction (h : List Event) (p : Parties) (s : Side) : Prop where
  stream : written h s.other = taken h s ++ p.held s ++ (p.duplex.stream s).unread
  solid : (p.duplex.stream s).Solid
  ended : (p.duplex.stream s).ended = true ↔ Closed h s.other

namespace Direction

/-- It holds further on if the stream is told what is over. -/
theorem next (hd : Direction h p s) (got : Bytes)
    (hcarried : Carried (p.duplex.stream s) (p'.duplex.stream s) got (written es s.other)
      (Closed es s.other))
    (hgot : p.held s ++ got = taken es s ++ p'.held s) : Direction (h ++ es) p' s where
  stream := calc
    written (h ++ es) s.other
    _ = taken h s ++ p.held s ++ (p.duplex.stream s).unread ++ written es s.other := by
      rw [written_append, hd.stream]
    _ = taken h s ++ (p.held s ++ got) ++ (p'.duplex.stream s).unread := by
      rw [List.append_assoc, hcarried.unread]
      simp only [List.append_assoc]
    _ = taken (h ++ es) s ++ p'.held s ++ (p'.duplex.stream s).unread := by
      rw [hgot, taken_append]
      simp only [List.append_assoc]
  solid := hcarried.solid hd.solid
  ended := by rw [hcarried.ended, hd.ended, closed_append]

/-- It says nothing of the time, nor of a call that waits and has got nothing. -/
theorem of_same (hd : Direction h p s) (hstream : p'.duplex.stream s = p.duplex.stream s)
    (hheld : p'.held s = p.held s) : Direction h p' s := by
  constructor
  · rw [hheld, hstream]
    exact hd.stream
  · rw [hstream]
    exact hd.solid
  · rw [hstream]
    exact hd.ended

/-- A call is over that reads nothing, and that only the other end notices. -/
theorem finished (hd : Direction h p s) {duplex : Duplex} {call : Call} {reply : Reply}
    (hgot : (⟨side, call, reply⟩ : Event).got = [])
    (hown : s = side → duplex.stream s = p.duplex.stream s)
    (hother : s = side.other → Carried (p.duplex.stream s) (duplex.stream s) []
      (⟨side, call, reply⟩ : Event).put (⟨side, call, reply⟩ : Event).Closes) :
    Direction (h ++ [⟨side, call, reply⟩]) { p with duplex } s := by
  refine hd.next [] ?_ ?_
  · rw [written_singleton, closed_singleton]
    by_cases hs : s = side.other
    · have hside : side = s.other := Side.eq_other_comm.2 hs
      simpa only [hside, if_true, true_and] using hside ▸ hother hs
    · have hside : side ≠ s.other := mt Side.eq_other_comm.1 hs
      rw [if_neg hside, hown (not_not.1 (mt Side.ne_iff.1 hs))]
      exact Transport.carried_self _ fun h => hside h.1
  · rw [taken_singleton, hgot, ite_self, List.append_nil, List.nil_append]
    rfl

/-- A call is made. -/
theorem start (hd : Direction h p s) (call : Call) (hidle : p.waiting side = none) :
    Direction (h ++ (p.start side call).1.toList) (p.start side call).2 s := by
  cases call with
  | write data =>
    rw [Parties.start]
    rcases p.duplex.write_cases side data with ⟨fault, hwrite⟩ | ⟨duplex, hwrite, hstream⟩
    · rw [hwrite]
      exact hd.finished rfl (fun _ => rfl) fun _ => Transport.carried_self _ not_false
    · rw [hwrite]
      refine hd.finished rfl (fun hs => ?_) fun hs => ?_
      · rw [hstream, if_neg (hs ▸ side.other_ne.symm)]
      · rw [hstream, if_pos hs]
        show Carried _ _ [] (data.take data.length) False
        rw [List.take_length]
        exact Transport.carried_deliver ..
  | closeWrite =>
    show Direction (h ++ [⟨side, .closeWrite, .done⟩])
      { p with duplex := p.duplex.closeWrite side } s
    refine hd.finished rfl (fun hs => ?_) fun hs => ?_
    · rw [stream_closeWrite, if_neg (hs ▸ side.other_ne.symm)]
    · rw [stream_closeWrite, if_pos hs]
      exact Transport.carried_close _
  | drop =>
    show Direction (h ++ [⟨side, .drop, .done⟩]) { p with duplex := p.duplex.drop side } s
    refine hd.finished rfl (fun hs => ?_) fun hs => ?_
    · rw [stream_drop, if_neg (hs ▸ side.other_ne.symm)]
    · rw [stream_drop, if_pos hs]
      exact Transport.carried_abandon _
  | setReadTimeout limit =>
    show Direction (h ++ [⟨side, .setReadTimeout limit, .done⟩])
      { p with duplex := p.duplex.setReadTimeout side limit } s
    refine hd.finished rfl (fun _ => stream_setReadTimeout ..) fun _ => ?_
    rw [stream_setReadTimeout]
    exact Transport.carried_self _ not_false
  | read size | readToClose =>
    -- the party only begins to wait, with nothing in hand
    show Direction (h ++ []) (p.setWaiting side _) s
    rw [List.append_nil]
    refine hd.of_same rfl ?_
    rw [held_setWaiting]
    split
    · rename_i hs
      rw [hs, held, hidle]
      rfl
    · rfl

/-- A party has taken bytes that are there: they have been read, or are held by a call that is not
over. -/
theorem took (hd : Direction h p s) {duplex : Duplex} (data : Bytes) (w : Option Waiting)
    (hcarried : Carried (p.duplex.stream s) (duplex.stream s) (if s = side then data else []) []
      False)
    (hreads : ∀ x ∈ e, x.side = side ∧ x.put = [] ∧ ¬ x.Closes)
    (hgot : p.held side ++ data = (e.map Event.got).getD [] ++ heldBy w) :
    Direction (h ++ e.toList) ({ p with duplex }.setWaiting side w) s := by
  have hwritten : written e.toList s.other = [] := by
    cases e with
    | none => rfl
    | some x => rw [Option.toList_some, written_singleton, (hreads x rfl).2.1, ite_self]
  have hcloses : Closed e.toList s.other ↔ False :=
    iff_false_intro fun ⟨x, hx, _, hcloses⟩ => (hreads x (by simpa using hx)).2.2 hcloses
  have htaken : taken e.toList s = if s = side then (e.map Event.got).getD [] else [] := by
    cases e with
    | none => exact (ite_self _).symm
    | some x =>
      rw [Option.toList_some, taken_singleton, (hreads x rfl).1]
      exact if_congr eq_comm rfl rfl
  refine hd.next _ (by rwa [hwritten, hcloses]) ?_
  rw [htaken, held_setWaiting]
  split
  · rename_i hs
    rw [hs, hgot]
  · exact List.append_nil _

/-- A party that waits has looked. -/
theorem look (hd : Direction h p s) {w : Waiting} (hw : p.waiting side = some w)
    (hlook : Looked p side w e p') : Direction (h ++ e.toList) p' s := by
  have hheld : p.held side = heldBy (some w) := by rw [held, hw]
  have hrest : Carried (p.duplex.stream s) ((p.duplex.readToClose side).2.stream s)
      (if s = side then (p.duplex.stream side).unread else []) [] False := by
    rw [stream_readToClose]
    split
    · rename_i hs
      rw [hs]
      exact Transport.carried_all _
    · exact Transport.carried_self _ not_false
  cases hlook with
  | read _ _ hcarried =>
    refine hd.took _ none (hcarried s) ?_ ?_
    · rintro _ ⟨⟩
      exact ⟨rfl, rfl, not_false⟩
    · rw [hheld]
      exact (List.append_nil _).symm
  | last =>
    refine hd.took _ none hrest ?_ ?_
    · rintro _ ⟨⟩
      exact ⟨rfl, rfl, not_false⟩
    · rw [hheld]
      exact (List.append_nil _).symm
  | further =>
    refine hd.took _ _ hrest (fun _ hx => absurd hx (Option.not_mem_none _)) ?_
    rw [hheld]
    rfl

/-- **Every step keeps** what holds of the bytes that either of the parties reads. -/
theorem step (hd : ∀ s, Direction h p s) (hstep : p.step label = some (e, p')) (s : Side) :
    Direction (h ++ e.toList) p' s := by
  cases label with
  | call side call =>
    rw [Parties.step] at hstep
    split at hstep
    · cases hstep
    · rename_i hfree
      rw [Bool.or_eq_true, not_or, Option.not_isSome_iff_eq_none] at hfree
      have hstart := Option.some.inj hstep
      have hd' := (hd s).start call hfree.1
      rwa [hstart] at hd'
  | look side =>
    obtain ⟨w, hw, hlook⟩ := Option.bind_eq_some_iff.1 hstep
    exact (hd s).look hw (looked_of_look (hd side).solid hlook)
  | giveUp side =>
    obtain ⟨w, hw, hgive⟩ := Option.bind_eq_some_iff.1 hstep
    obtain ⟨size, d, rfl, rfl, rfl⟩ := giveUp_cases hgive
    refine (hd s).took [] none ?_ ?_ ?_
    · rw [ite_self]
      exact Transport.carried_self _ not_false
    · rintro _ ⟨⟩
      exact ⟨rfl, rfl, not_false⟩
    · rw [held, hw]
      rfl
  | pass ms =>
    cases hstep
    exact (List.append_nil h).symm ▸ (hd s).of_same rfl rfl

end Direction

/-! ## Runs -/

/-- Two parties from the beginning on, with the calls that are over. -/
inductive Run : List Event → Parties → Prop
  | start : Run [] {}
  | step {h : List Event} {p p' : Parties} {e : Option Event} (label : Label) :
      Run h p → p.step label = some (e, p') → Run (h ++ e.toList) p'

theorem Run.direction (run : Run h p) (s : Side) : Direction h p s := by
  induction run generalizing s with
  | start =>
    have hnew : ({} : Duplex).stream s = {} := by cases s <;> rfl
    refine ⟨?_, ?_, ?_⟩
    · rw [hnew]
      rfl
    · rw [hnew]
      exact fun _ ha => absurd ha List.not_mem_nil
    · rw [hnew]
      exact ⟨nofun, fun ⟨_, hx, _⟩ => absurd hx List.not_mem_nil⟩
  | step label _ hstep ih => exact Direction.step ih hstep s

/-- What a call that reads says is so, when it is over and the calls before it were the given
ones. -/
def Truthful (h : List Event) (x : Event) : Prop :=
  match x.call, x.reply with
  | .read size, .read (.ok data) =>
    data.length ≤ size ∧
      (data = [] → size ≠ 0 → Closed h x.side.other ∧ taken h x.side = written h x.side.other)
  | .read _, .read (.error fault) => fault = readTimedOut
  | .readToClose, .rest data =>
    Closed h x.side.other ∧ taken h x.side ++ data = written h x.side.other
  | _, _ => True

/-- **A call that is over** has told the truth, and a read whose time was over has left the
connection as it was. -/
theorem over_of_step (hd : ∀ s, Direction h p s) {x : Event}
    (hstep : p.step label = some (some x, p')) :
    Truthful h x ∧ ∀ fault, x.reply = .read (.error fault) → p'.duplex = p.duplex := by
  cases label with
  | call side call =>
    rw [Parties.step] at hstep
    split at hstep
    · cases hstep
    · have hx := congrArg Prod.fst (Option.some.inj hstep)
      cases call <;> cases hx <;> exact ⟨trivial, nofun⟩
  | look side =>
    obtain ⟨w, hw, hlook⟩ := Option.bind_eq_some_iff.1 hstep
    have hstream := (hd side).stream
    rw [held, hw] at hstream
    cases looked_of_look (hd side).solid hlook with
    | read hsize hnil _ =>
      refine ⟨⟨hsize, fun hdata hne => ?_⟩, nofun⟩
      obtain ⟨hended, hunread⟩ := hnil hdata hne
      rw [hunread] at hstream
      exact ⟨(hd side).ended.1 hended, by simpa [heldBy] using hstream.symm⟩
    | last hended =>
      refine ⟨⟨(hd side).ended.1 hended, ?_⟩, nofun⟩
      rw [hstream, ← List.append_assoc]
      rfl
  | giveUp side =>
    obtain ⟨w, hw, hgive⟩ := Option.bind_eq_some_iff.1 hstep
    obtain ⟨size, d, rfl, hx, rfl⟩ := giveUp_cases hgive
    cases hx
    exact ⟨rfl, fun _ _ => rfl⟩
  | pass ms => cases hstep

/-- **Whatever two parties do**, and however their calls are mixed, what one reads is a beginning of
what the other has written, and the rest of that is still there for it or in its hands.  A read that
returns nothing has found the other end closed and everything read; one that reads up to the end of
the stream returns all that has not been read; and one whose time is over leaves the connection as
it is. -/
theorem bytes_of_run (run : Run h p) :
    (∀ side, taken h side <+: written h side.other) ∧
    (∀ side, written h side.other =
      taken h side ++ p.held side ++ (p.duplex.stream side).unread) ∧
    (∀ h₁ x, h₁ ++ [x] <+: h → Truthful h₁ x) ∧
    ∀ label side size fault p',
      p.step label = some (some ⟨side, .read size, .read (.error fault)⟩, p') →
        p'.duplex = p.duplex := by
  refine ⟨fun side => ?_, fun side => (run.direction side).stream, ?_,
    fun label side size fault p' hstep => (over_of_step run.direction hstep).2 fault rfl⟩
  · rw [(run.direction side).stream, List.append_assoc]
    exact List.prefix_append _ _
  · induction run with
    | start => exact fun h₁ x hfront => by simp at hfront
    | @step h p p' e label run hstep ih =>
      intro h₁ x hfront
      cases e with
      | none => exact ih h₁ x (by simpa using hfront)
      | some y =>
        rcases List.prefix_concat_iff.1 hfront with heq | hfront
        · obtain ⟨rfl, rfl⟩ := List.append_singleton_inj.1 heq
          exact (over_of_step run.direction hstep).1
        · exact ih h₁ x hfront

/-- A chunk of three bytes that is read in two parts, the second of them when no more can come. -/
theorem bytes_of_run_two_parts :
    let h : List Event :=
      [⟨.a, .write [1, 2, 3], .written (.ok 3)⟩, ⟨.b, .read 2, .read (.ok [1, 2])⟩,
      ⟨.a, .closeWrite, .done⟩, ⟨.b, .readToClose, .rest [3]⟩]
    ∃ p, Run h p ∧ taken h .b <+: written h .a ∧ Closed (h.take 3) .a ∧
      taken (h.take 3) .b ++ [3] = written (h.take 3) .a := by
  intro h
  have run : Run h _ := ((((((Run.start.step (.call .a (.write [1, 2, 3])) rfl).step
    (.call .b (.read 2)) rfl).step (.look .b) rfl).step (.call .a .closeWrite) rfl).step
    (.call .b .readToClose) rfl).step (.look .b) rfl)
  obtain ⟨hfront, -, htruthful, -⟩ := bytes_of_run run
  exact ⟨_, run, hfront .b, htruthful (h.take 3) ⟨.b, .readToClose, .rest [3]⟩ (List.prefix_rfl)⟩

/-! ## A party that reads alone -/

theorem set_get (c : Duplex) (side : Side) : c.set (c.get side) side = c := by cases side <;> rfl

theorem patience_of_timeout {c : Duplex} {ms : Nat} (hms : (c.get side).readTimeout = some ms)
    (hfar : c.clock.now + ms < Deadline.horizon) :
    c.patience side = .atInstant (c.clock.now + ms) := by
  rw [patience, hms]
  exact if_pos hfar

/-- A read that has to wait waits until its time is over. -/
theorem read_of_not_ready {c : Duplex} {size ms : Nat} (hsize : size ≠ 0)
    (hready : c.isReady side = false) (hms : (c.get side).readTimeout = some ms)
    (hfar : c.clock.now + ms < Deadline.horizon) :
    c.read side size = (.error readTimedOut, { c with clock := c.clock.pass ms }) := by
  have hread : c.read side size = _ := if_neg hsize
  obtain ⟨hin, hended⟩ : (c.get side).transport.incoming = [] ∧
      (c.get side).transport.ended = false := by simpa [isReady] using hready
  have hpass : c.clock.advanceTo (c.clock.now + ms) = c.clock.pass ms := by
    rw [Clock.advanceTo, Nat.max_eq_right (Nat.le_add_right ..)]
    rfl
  simp only [hready, Bool.false_eq_true, if_false, patience_of_timeout hms hfar, hin,
    Wire.receiveFrom, hended, Wire.expire, Deadline.expiry?, Deadline.atInstant, List.foldl_nil,
    hpass] at hread
  have hend : ∀ e : End, e.transport.incoming = [] → e.transport.ended = false →
      { e with transport :=
        { outgoing := e.transport.outgoing, refused := e.transport.refused,
          sent := e.transport.sent } } =
      e := by
    rintro ⟨⟨_, _, _, _, _⟩, _, _, _⟩ rfl rfl
    rfl
  rw [hread, hend _ hin hended]
  exact congrArg (Except.error readTimedOut, ·) (set_get { c with clock := c.clock.pass ms } side)

/-- **A party that reads alone**, and will not wait for ever, is given what `Duplex.read` gives. -/
theorem Run.read (run : Run h p) (hidle : p.waiting side = none)
    (hthere : (p.duplex.get side).dropped = false) {size : Nat}
    (hends : size = 0 ∨ p.duplex.isReady side = true ∨
      ∃ ms, (p.duplex.get side).readTimeout = some ms ∧
        p.duplex.clock.now + ms < Deadline.horizon) :
    Run (h ++ [⟨side, .read size, .read (p.duplex.read side size).1⟩])
      { p with duplex := (p.duplex.read side size).2 } := by
  let p₁ := p.setWaiting side (some (.read size (p.duplex.patience side)))
  have hwait : p₁.waiting side = some (.read size (p.duplex.patience side)) := if_pos rfl
  have hback (duplex : Duplex) : { p₁ with duplex }.setWaiting side none = { p with duplex } := by
    refine congrArg (Parties.mk duplex) (funext fun s => ?_)
    by_cases hs : s = side
    · rw [hs, hidle]
      exact if_pos rfl
    · exact (if_neg hs).trans (if_neg hs)
  have run₁ : Run h p₁ := by
    have hcall : p.step (.call side (.read size)) = some (none, p₁) := by
      rw [Parties.step, hidle, hthere]
      rfl
    simpa using run.step _ hcall
  by_cases hgo : size = 0 ∨ p.duplex.isReady side = true
  · have hlook : p₁.step (.look side) = some
        (some ⟨side, .read size, .read (p.duplex.read side size).1⟩,
          { p with duplex := (p.duplex.read side size).2 }) := by
      have hgo' : (size = 0 || p₁.duplex.isReady side) = true := by
        rwa [Bool.or_eq_true, decide_eq_true_eq]
      rw [Parties.step, hwait, Option.bind_some, Parties.look, if_pos hgo', ← hback]
      rfl
    exact run₁.step _ hlook
  · -- nothing is there, and nobody else acts: the time passes and the party gives up
    obtain ⟨hsize, hready⟩ := not_or.1 hgo
    obtain ⟨ms, hms, hfar⟩ := (hends.resolve_left hsize).resolve_left hready
    rw [read_of_not_ready hsize (Bool.eq_false_iff.2 hready) hms hfar]
    let duplex : Duplex := { p.duplex with clock := p.duplex.clock.pass ms }
    have run₂ : Run (h ++ []) { p₁ with duplex } := run₁.step (.pass ms) rfl
    rw [List.append_nil] at run₂
    have hover : (p.duplex.patience side).isExpired duplex.clock = true := by
      rw [patience_of_timeout hms hfar]
      exact decide_eq_true (Nat.le_refl _)
    have hgive : { p₁ with duplex }.step (.giveUp side) = some
        (some ⟨side, .read size, .read (.error readTimedOut)⟩, { p with duplex }) := by
      rw [Parties.step, hwait, Option.bind_some, Parties.giveUp, hover,
        if_pos (by simpa using hsize), ← hback]
    exact run₂.step _ hgive

end Parties

end Duplex

end ScriptHost
