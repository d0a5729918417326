import ScriptHost.Proofs.Bus.Run

/-!
# The course of an emit

An emit finds its inboxes and its listeners when it starts.  However its thread and others go on, it
serves these inboxes, gives these listeners their turns, each once and in this order, and returns a
delivery that counts what it has done.

* `Frame.Tells` — the deeds of an emit that is under way against its frame: what it has done and
  what it has still to do make up what it has found.
* `Run.emits` — the invariant, over all emits that are under way in any thread.
* `Run.course` — what it says of one emit in the history of a run.
-/

set_option autoImplicit false

namespace ScriptHost.Bus

variable {α ε : Type}

/-! ## The deeds of one emit -/

/-- The deeds of an emit. -/
def deedsOf (k : Nat) (h : History α) : History α := h.filter (·.emit? = some k)

/-- The inbox that a deed serves. -/
def Deed.served? : Deed α → Option Nat
  | offered _ id _ _ | declined _ id _ => some id
  | _ => none

/-- The listener that has its turn. -/
def Deed.turn? : Deed α → Option Nat
  | turn _ id _ => some id
  | _ => none

/-- What a deed adds to the delivery of its emit. -/
def Deed.receipt : Deed α → Delivery
  | offered _ _ _ lost => ⟨0, 1, lost.isSome.toNat⟩
  | turn _ _ called => ⟨called.toNat, 0, 0⟩
  | _ => {}

/-- What an emit does with its event between its start and its return. -/
def Deed.Serves (event : α) : Deed α → Prop
  | offered _ _ e _ | declined _ _ e => e = event
  | turn .. => True
  | _ => False

/-- The inboxes that have been served, in order. -/
def served (h : History α) : List Nat := h.filterMap Deed.served?

/-- The listeners that have had their turns, in order. -/
def turns (h : History α) : List Nat := h.filterMap Deed.turn?

/-- What emits count for their deeds. -/
def tally (h : History α) : Delivery := h.foldl (fun total d => total + d.receipt) {}

theorem filterMap_concat {κ : Type} (f : Deed α → Option κ) (h : History α) (d : Deed α) :
    (h ++ [d]).filterMap f = h.filterMap f ++ (f d).toList := by
  rw [List.filterMap_append, List.filterMap_cons]
  cases f d <;> rfl

theorem mem_deedsOf {k : Nat} {h : History α} {d : Deed α} :
    d ∈ deedsOf k h ↔ d ∈ h ∧ d.emit? = some k := by
  rw [deedsOf, List.mem_filter, decide_eq_true_iff]

theorem deedsOf_append (k : Nat) (h h' : History α) :
    deedsOf k (h ++ h') = deedsOf k h ++ deedsOf k h' := List.filter_append ..

theorem deedsOf_append_of_ne {k : Nat} {d : Option (Deed α)} (hd : d.bind Deed.emit? ≠ some k)
    (h : History α) : deedsOf k (h ++ d.toList) = deedsOf k h := by
  cases d with
  | none => exact congrArg _ (List.append_nil h)
  | some d => simpa [deedsOf] using hd

theorem deedsOf_concat_of_ne {j k : Nat} {d : Deed α} (hd : d.emit? = some j) (hne : k ≠ j)
    (h : History α) : deedsOf k (h ++ [d]) = deedsOf k h :=
  deedsOf_append_of_ne (d := some d) (fun hk => hne (Option.some_inj.1 (hk.symm.trans hd))) h

theorem deedsOf_concat_of_eq {k : Nat} {d : Deed α} (hd : d.emit? = some k) (h : History α) :
    deedsOf k (h ++ [d]) = deedsOf k h ++ [d] := by
  simp [deedsOf, hd]

theorem tally_append (h : History α) (d : Deed α) : tally (h ++ [d]) = tally h + d.receipt := by
  rw [tally, List.foldl_append]
  rfl

/-! ## Frames -/

/-- What an emit has done so far, and what it has still to do. -/
structure Frame.Progress (f : Frame α ε) (listeners : List Nat) (done : History α) : Prop where
  served : served done ++ f.targets = f.audience
  turns : turns done ++ f.rest = listeners
  tally : f.delivery + ⟨f.calling.isSome.toNat, 0, 0⟩ = tally done
  serves : ∀ d ∈ done, d.Serves f.event

/-- The deeds of an emit, from its start on. -/
def Frame.Tells (f : Frame α ε) (log : History α) : Prop :=
  ∃ within topic listeners done,
    log = .started f.number within topic f.event f.audience listeners :: done ∧
      f.Progress listeners done

/-- Nothing is left to do but to return. -/
structure Frame.IsOver (f : Frame α ε) : Prop where
  targets : f.targets = []
  calling : f.calling = none
  rest : f.rest = []

@[simp] theorem Delivery.listeners_add (a b : Delivery) :
    (a + b).listeners = a.listeners + b.listeners := rfl

@[simp] theorem Delivery.dropped_add (a b : Delivery) : (a + b).dropped = a.dropped + b.dropped :=
  rfl

theorem Delivery.add_right_comm (a b c : Delivery) : a + b + c = a + c + b := by
  show Delivery.mk _ _ _ = Delivery.mk _ _ _
  congr 1 <;> exact Nat.add_right_comm ..

namespace Frame

variable {f f' : Frame α ε} {listeners : List Nat} {done log : History α} {d : Deed α}

theorem Progress.append (h : f.Progress listeners done)
    (ht : d.served?.toList ++ f'.targets = f.targets) (hr : d.turn?.toList ++ f'.rest = f.rest)
    (hd : f'.delivery + ⟨f'.calling.isSome.toNat, 0, 0⟩ =
      f.delivery + ⟨f.calling.isSome.toNat, 0, 0⟩ + d.receipt)
    (ha : f'.audience = f.audience) (he : f'.event = f.event) (hs : d.Serves f.event) :
    f'.Progress listeners (done ++ [d]) where
  served := by rw [Bus.served, filterMap_concat, List.append_assoc, ht, ha, ← h.served, Bus.served]
  turns := by rw [Bus.turns, filterMap_concat, List.append_assoc, hr, ← h.turns, Bus.turns]
  tally := by rw [tally_append, hd, h.tally]
  serves d' hd' := by
    rw [he]
    rcases mem_concat.1 hd' with hold | rfl
    · exact h.serves d' hold
    · exact hs

/-- An emit goes on, with a deed or none. -/
structure Resumes (f : Frame α ε) (d : Option (Deed α)) (f' : Frame α ε) : Prop where
  number : f'.number = f.number
  event : f'.event = f.event
  audience : f'.audience = f.audience
  emit : ∀ deed ∈ d, deed.emit? = some f.number ∧ deed.isStart = false
  progress : ∀ listeners done, f.Progress listeners done →
    f'.Progress listeners (done ++ d.toList)

theorem Resumes.tells {d : Option (Deed α)} (h : f.Resumes d f') (ht : f.Tells log) :
    f'.Tells (log ++ d.toList) := by
  obtain ⟨within, topic, listeners, done, rfl, hp⟩ := ht
  refine ⟨within, topic, listeners, done ++ d.toList, ?_, h.progress listeners done hp⟩
  rw [h.number, h.event, h.audience, List.cons_append]

end Frame

/-- A step of a thread starts an emit, lets its innermost one go on or return, or leaves its emits
alone. -/
theorem Advance.course {emits : Nat} {idle idle' : Bool} {stack stack' : List (Frame α ε)}
    {d : Option (Deed α)} (h : Advance emits idle stack d idle' stack') :
    (stack' = stack ∧ d.bind Deed.emit? = none) ∨
    (∃ topic event audience rest next,
      d = some (.started emits (stack.map (·.number)) topic event audience rest) ∧
      stack' = { number := emits, event, audience, rest, next } :: stack) ∨
    (∃ f f' outer, stack = f :: outer ∧ stack' = f' :: outer ∧ f.Resumes d f') ∨
    (∃ f outer, stack = f :: outer ∧ stack' = outer ∧ f.IsOver ∧
      d = some (.returned f.number f.delivery)) := by
  cases h with
  | other _ hd => exact .inl ⟨rfl, hd⟩
  | started _ topic event audience rest next =>
    exact .inr (.inl ⟨topic, event, audience, rest, next, rfl, rfl⟩)
  | @offered f outer id targets lost ht =>
    refine .inr (.inr (.inl ⟨f, _, outer, rfl, rfl, rfl, rfl, rfl, ?_, fun _ _ hp => ?_⟩))
    · rintro _ ⟨⟩
      exact ⟨rfl, rfl⟩
    · exact hp.append ht.symm rfl (Delivery.add_right_comm ..) rfl rfl rfl
  | @declined f outer id targets ht =>
    refine .inr (.inr (.inl ⟨f, _, outer, rfl, rfl, rfl, rfl, rfl, ?_, fun _ _ hp => ?_⟩))
    · rintro _ ⟨⟩
      exact ⟨rfl, rfl⟩
    · exact hp.append ht.symm rfl rfl rfl rfl rfl
  | @called _ f outer id rest ht hc hr =>
    refine .inr (.inr (.inl ⟨f, _, outer, rfl, rfl, rfl, rfl, rfl, ?_, fun _ _ hp => ?_⟩))
    · rintro _ ⟨⟩
      exact ⟨rfl, rfl⟩
    · exact hp.append rfl hr.symm (by rw [hc]; rfl) rfl rfl trivial
  | @passed f outer id rest ht hc hr =>
    refine .inr (.inr (.inl ⟨f, _, outer, rfl, rfl, rfl, rfl, rfl, ?_, fun _ _ hp => ?_⟩))
    · rintro _ ⟨⟩
      exact ⟨rfl, rfl⟩
    · exact hp.append rfl hr.symm rfl rfl rfl trivial
  | @left f outer id ht hc =>
    refine .inr (.inr (.inl ⟨f, _, outer, rfl, rfl, rfl, rfl, rfl, nofun, fun _ done hp => ?_⟩))
    rw [Option.toList_none, List.append_nil]
    exact ⟨hp.served, hp.turns, by rw [← hp.tally, hc]; rfl, hp.serves⟩
  | @returned _ f outer ht hc hr =>
    exact .inr (.inr (.inr ⟨f, _, rfl, rfl, ⟨ht, hc, hr⟩, rfl⟩))

/-! ## All emits of a run -/

/-- The emits that are under way in any thread. -/
def Threads.frames (w : Threads α ε) : List (Frame α ε) := w.threads.flatMap (·.stack)

/-- A step changes the emits of one thread, and leaves those of all others alone. -/
theorem Threads.Moves.frames {w w' : Threads α ε} {d : Option (Deed α)} (hm : w.Moves d w') :
    ∃ l₁ l₂ idle idle' stack stack', w.frames = l₁ ++ (stack ++ l₂) ∧
      w'.frames = l₁ ++ (stack' ++ l₂) ∧ Advance w.session.emits idle stack d idle' stack' := by
  rcases hm.threads with ⟨he, hplain⟩ | ⟨l₁, l₂, t, t', hold, hnew, hadv, -⟩
  · refine ⟨w.frames, [], true, true, [], [], (List.append_nil _).symm, ?_,
      .other (fun _ => rfl) ?_⟩
    · rw [Threads.frames, he]
      exact (List.append_nil _).symm
    · cases d with
      | none => rfl
      | some deed => exact (Deed.of_isPlain (hplain deed rfl)).1
  · refine ⟨l₁.flatMap (·.stack), l₂.flatMap (·.stack), _, _, t.stack, t'.stack, ?_, ?_, hadv⟩
    · rw [Threads.frames, hold, List.flatMap_append, List.flatMap_cons]
    · rw [Threads.frames, hnew, List.flatMap_append, List.flatMap_cons]

/-- Whoever offers an event has found the inbox and has still to serve it. -/
theorem Threads.Moves.frame_of_offered {w w' : Threads α ε} {k id : Nat} {event : α}
    {lost : Option α} (hm : w.Moves (some (.offered k id event lost)) w') :
    ∃ f ∈ w.frames, f.number = k ∧ f.event = event ∧ ∃ targets, f.targets = id :: targets := by
  obtain ⟨l₁, l₂, idle, idle', stack, stack', hf, -, hadv⟩ := hm.frames
  cases hadv with
  | other _ hd => cases hd
  | @offered f outer _ targets _ ht =>
    exact ⟨f, hf ▸ List.mem_append_right _ List.mem_cons_self, rfl, rfl, targets, ht⟩

/-- Whoever gives a listener its turn has found it. -/
theorem Threads.Moves.frame_of_turn {w w' : Threads α ε} {k l : Nat} {called : Bool}
    (hm : w.Moves (some (.turn k l called)) w') :
    ∃ f ∈ w.frames, f.number = k ∧ ∃ rest, f.rest = l :: rest := by
  obtain ⟨l₁, l₂, idle, idle', stack, stack', hf, -, hadv⟩ := hm.frames
  have hmem (f : Frame α ε) (outer : List (Frame α ε)) (hs : stack = f :: outer) : f ∈ w.frames :=
    hf ▸ hs ▸ List.mem_append_right _ List.mem_cons_self
  cases hadv with
  | other _ hd => cases hd
  | called _ _ hr => exact ⟨_, hmem _ _ rfl, rfl, _, hr⟩
  | passed _ _ hr => exact ⟨_, hmem _ _ rfl, rfl, _, hr⟩

/-- The number of the emit that a deed starts. -/
def Deed.started? : Deed α → Option Nat
  | started k .. => some k
  | _ => none

/-- All emits of a run: those that are under way have done what their frames tell, and the others
have returned. -/
structure Emits (h : History α) (w : Threads α ε) : Prop where
  starts : h.filterMap Deed.started? = List.range w.session.emits
  numbers : ∀ d ∈ h, ∀ k, d.emit? = some k → k < w.session.emits
  nodup : (w.frames.map (·.number)).Nodup
  frames : ∀ f ∈ w.frames, f.Tells (deedsOf f.number h)
  rest : ∀ k < w.session.emits, k ∈ w.frames.map (·.number) ∨
    ∃ (f : Frame α ε) (log : History α), f.number = k ∧ f.IsOver ∧ f.Tells log ∧
      deedsOf k h = log ++ [.returned k f.delivery]

namespace Emits

variable {h : History α} {w w' : Threads α ε}

theorem deedsOf_next (he : Emits h w) : deedsOf w.session.emits h = [] := by
  refine List.filter_eq_nil_iff.2 fun d hd hk => ?_
  exact Nat.lt_irrefl _ (he.numbers d hd _ (of_decide_eq_true hk))

theorem number_lt (he : Emits h w) {f : Frame α ε} (hf : f ∈ w.frames) :
    f.number < w.session.emits := by
  obtain ⟨within, topic, listeners, done, hlog, -⟩ := he.frames f hf
  have hmem :
      Deed.started f.number within topic f.event f.audience listeners ∈ deedsOf f.number h :=
    hlog ▸ List.mem_cons_self
  exact he.numbers _ (mem_deedsOf.1 hmem).1 _ rfl

theorem numbers_append (he : Emits h w) {d : Option (Deed α)} {next : Nat}
    (hle : w.session.emits ≤ next) (hd : ∀ k, d.bind Deed.emit? = some k → k < next) :
    ∀ d' ∈ h ++ d.toList, ∀ k, d'.emit? = some k → k < next := by
  intro d' hd' k hk
  rcases List.mem_append.1 hd' with hold | hlast
  · exact Nat.lt_of_lt_of_le (he.numbers d' hold k hk) hle
  · rw [Option.mem_toList] at hlast
    exact hd k (by rw [hlast, Option.bind_some, hk])

/-- A step that does nothing to any emit. -/
theorem other (he : Emits h w) {d : Option (Deed α)} (hd : d.bind Deed.emit? = none)
    (hf : w'.frames = w.frames) (hn : w'.session.emits = w.session.emits) :
    Emits (h ++ d.toList) w' := by
  have hlog (k : Nat) : deedsOf k (h ++ d.toList) = deedsOf k h :=
    deedsOf_append_of_ne (hd ▸ nofun) h
  have hstarts : d.toList.filterMap Deed.started? = [] := by
    cases d with
    | none => rfl
    | some d => cases d <;> first | rfl | cases hd
  constructor
  case starts => rw [List.filterMap_append, hstarts, List.append_nil, hn, he.starts]
  case numbers =>
    exact he.numbers_append (Nat.le_of_eq hn.symm) fun k hk => nomatch hd.symm.trans hk
  case nodup => exact hf ▸ he.nodup
  case frames =>
    intro f hmem
    rw [hlog]
    exact he.frames f (hf ▸ hmem)
  case rest =>
    intro k hk
    rw [hlog, hf]
    exact he.rest k (hn ▸ hk)

/-- An emit starts. -/
theorem start (he : Emits h w) {f : Frame α ε} {l₁ l₂ : List (Frame α ε)} {within : List Nat}
    {topic : String} (hf : w.frames = l₁ ++ l₂) (hf' : w'.frames = l₁ ++ f :: l₂)
    (hk : f.number = w.session.emits) (hn : w'.session.emits = w.session.emits + 1)
    (hp : f.Progress f.rest []) :
    Emits (h ++ [.started f.number within topic f.event f.audience f.rest]) w' := by
  have hlog : deedsOf f.number (h ++ [.started f.number within topic f.event f.audience f.rest]) =
      [.started f.number within topic f.event f.audience f.rest] := by
    rw [deedsOf_concat_of_eq rfl, hk, he.deedsOf_next, List.nil_append]
  -- the logs of all other emits stay as they are
  have hlog_of_ne {k : Nat} (hne : k ≠ f.number) :
      deedsOf k (h ++ [.started f.number within topic f.event f.audience f.rest]) = deedsOf k h :=
    deedsOf_concat_of_ne rfl hne h
  have hne {g : Frame α ε} (hg : g ∈ w.frames) : g.number ≠ f.number :=
    hk ▸ Nat.ne_of_lt (he.number_lt hg)
  constructor
  case starts =>
    rw [filterMap_concat, he.starts, hn, List.range_succ, ← hk]
    rfl
  case numbers =>
    refine he.numbers_append (d := some _) (by omega) fun k hk => ?_
    cases hk
    omega
  case nodup =>
    rw [hf', List.map_append, List.map_cons, List.nodup_middle, List.nodup_cons, ← List.map_append,
      ← hf]
    refine ⟨fun hmem => ?_, he.nodup⟩
    obtain ⟨g, hg, heq⟩ := List.mem_map.1 hmem
    exact hne hg heq
  case frames =>
    intro g hg
    rw [hf', List.mem_append, List.mem_cons, or_left_comm, ← List.mem_append, ← hf] at hg
    rcases hg with rfl | hold
    · rw [hlog]
      exact ⟨within, topic, g.rest, [], rfl, hp⟩
    · rw [hlog_of_ne (hne hold)]
      exact he.frames g hold
  case rest =>
    intro k hlt
    by_cases hkf : k = f.number
    · refine .inl ?_
      rw [hkf, hf']
      exact List.mem_map_of_mem (List.mem_append_right _ List.mem_cons_self)
    · rw [hlog_of_ne hkf]
      rcases he.rest k (by omega) with hmem | hover
      · refine .inl ?_
        rw [hf, List.map_append, List.mem_append] at hmem
        rw [hf', List.map_append, List.map_cons, List.mem_append, List.mem_cons, or_left_comm]
        exact .inr hmem
      · exact .inr hover

/-- The other emits have numbers of their own. -/
theorem number_ne (he : Emits h w) {f g : Frame α ε} {l₁ l₂ : List (Frame α ε)}
    (hf : w.frames = l₁ ++ f :: l₂) (hg : g ∈ l₁ ++ l₂) : g.number ≠ f.number := by
  have hnodup := he.nodup
  rw [hf, List.map_append, List.map_cons, List.nodup_middle, List.nodup_cons,
    ← List.map_append] at hnodup
  exact fun heq => hnodup.1 (heq ▸ List.mem_map_of_mem hg)

/-- An emit goes on. -/
theorem resume (he : Emits h w) {f f' : Frame α ε} {l₁ l₂ : List (Frame α ε)}
    {d : Option (Deed α)} (hf : w.frames = l₁ ++ f :: l₂) (hf' : w'.frames = l₁ ++ f' :: l₂)
    (hr : f.Resumes d f') (hn : w'.session.emits = w.session.emits) :
    Emits (h ++ d.toList) w' := by
  have hmem : f ∈ w.frames := hf ▸ List.mem_append_right _ List.mem_cons_self
  have hnumbers : w'.frames.map (·.number) = w.frames.map (·.number) := by
    rw [hf, hf', List.map_append, List.map_append, List.map_cons, List.map_cons, hr.number]
  have hlog_of_ne {k : Nat} (hne : k ≠ f.number) : deedsOf k (h ++ d.toList) = deedsOf k h := by
    refine deedsOf_append_of_ne (fun hk => hne ?_) h
    obtain ⟨deed, hdeed, hk⟩ := Option.bind_eq_some_iff.1 hk
    exact Option.some_inj.1 (hk.symm.trans (hr.emit deed hdeed).1)
  have hlog : deedsOf f.number (h ++ d.toList) = deedsOf f.number h ++ d.toList := by
    cases d with
    | none => simp
    | some deed => exact deedsOf_concat_of_eq (hr.emit deed rfl).1 h
  have hstarts : d.toList.filterMap Deed.started? = [] := by
    cases d with
    | none => rfl
    | some deed =>
      have hstart := (hr.emit deed rfl).2
      cases deed <;> first | rfl | cases hstart
  constructor
  case starts => rw [List.filterMap_append, hstarts, List.append_nil, hn, he.starts]
  case numbers =>
    refine he.numbers_append (Nat.le_of_eq hn.symm) fun k hk => ?_
    obtain ⟨deed, hdeed, hk⟩ := Option.bind_eq_some_iff.1 hk
    cases hk.symm.trans (hr.emit deed hdeed).1
    exact hn ▸ he.number_lt hmem
  case nodup => exact hnumbers ▸ he.nodup
  case frames =>
    intro g hg
    rw [hf', List.mem_append, List.mem_cons, or_left_comm, ← List.mem_append] at hg
    rcases hg with rfl | hother
    · rw [hr.number, hlog]
      exact hr.tells (he.frames f hmem)
    · rw [hlog_of_ne (he.number_ne hf hother)]
      refine he.frames g ?_
      rw [hf, List.mem_append, List.mem_cons, or_left_comm, ← List.mem_append]
      exact .inr hother
  case rest =>
    intro k hk
    rw [hn] at hk
    rw [hnumbers]
    by_cases hkf : k = f.number
    · exact .inl (hkf ▸ List.mem_map_of_mem hmem)
    · rw [hlog_of_ne hkf]
      exact he.rest k hk

/-- An emit returns. -/
theorem finish (he : Emits h w) {f : Frame α ε} {l₁ l₂ : List (Frame α ε)}
    (hf : w.frames = l₁ ++ f :: l₂) (hf' : w'.frames = l₁ ++ l₂) (hover : f.IsOver)
    (hn : w'.session.emits = w.session.emits) :
    Emits (h ++ [.returned f.number f.delivery]) w' := by
  have hmem : f ∈ w.frames := hf ▸ List.mem_append_right _ List.mem_cons_self
  have hlog_of_ne {k : Nat} (hne : k ≠ f.number) :
      deedsOf k (h ++ [.returned f.number f.delivery]) = deedsOf k h :=
    deedsOf_concat_of_ne rfl hne h
  have hnumbers : (w.frames.map (·.number)).Perm (f.number :: w'.frames.map (·.number)) := by
    rw [hf, hf', List.map_append, List.map_append, List.map_cons]
    exact List.perm_middle
  constructor
  case starts =>
    rw [filterMap_concat, hn, ← he.starts]
    exact List.append_nil _
  case numbers =>
    refine he.numbers_append (d := some _) (Nat.le_of_eq hn.symm) fun k hk => ?_
    cases hk
    exact hn ▸ he.number_lt hmem
  case nodup => exact (hnumbers.nodup_iff.1 he.nodup).of_cons
  case frames =>
    intro g hg
    rw [hf'] at hg
    rw [hlog_of_ne (he.number_ne hf hg)]
    refine he.frames g ?_
    rw [hf, List.mem_append, List.mem_cons, or_left_comm, ← List.mem_append]
    exact .inr hg
  case rest =>
    intro k hk
    rw [hn] at hk
    by_cases hkf : k = f.number
    · subst hkf
      exact .inr ⟨f, _, rfl, hover, he.frames f hmem, deedsOf_concat_of_eq rfl h⟩
    · rw [hlog_of_ne hkf]
      refine (he.rest k hk).imp_left fun hin => ?_
      exact (List.mem_cons.1 (hnumbers.mem_iff.1 hin)).resolve_left hkf

theorem step (he : Emits h w) {d : Option (Deed α)} (hm : w.Moves d w') :
    Emits (h ++ d.toList) w' := by
  obtain ⟨l₁, l₂, idle, idle', stack, stack', hf, hf', hadv⟩ := hm.frames
  have hn := hm.emits
  rcases hadv.course with ⟨rfl, hd⟩ | ⟨topic, event, audience, rest, next, rfl, rfl⟩ |
    ⟨f, f', outer, rfl, rfl, hr⟩ | ⟨f, outer, rfl, rfl, hover, rfl⟩
  · refine he.other hd (hf'.trans hf.symm) (hn.trans ?_)
    cases d with
    | none => rfl
    | some d => cases d <;> first | rfl | cases hd
  · exact he.start hf hf' rfl hn ⟨rfl, rfl, rfl, nofun⟩
  · refine he.resume hf hf' hr (hn.trans ?_)
    cases d with
    | none => rfl
    | some d => rw [Option.any_some, (hr.emit d rfl).2]; rfl
  · exact he.finish hf hf' hover hn

end Emits

variable {capacity n : Nat} {clock : Clock} {h h₁ h₂ : History α} {w : Threads α ε}

theorem Threads.frames_new : (Threads.new capacity clock n : Threads α ε).frames = [] := by
  simp [Threads.frames, Threads.new]

theorem Run.emits (run : Run (.new capacity clock n) h w) : Emits h w := by
  refine run.invariant Emits ⟨rfl, nofun, ?_, ?_, nofun⟩ fun _ _ _ _ _ he hm _ => he.step hm
  · rw [Threads.frames_new]
    exact .nil
  · rw [Threads.frames_new]
    exact nofun

/-- What an emit has done after its start, when it has found these inboxes and listeners. -/
structure Course (k : Nat) (event : α) (audience listeners : List Nat)
    (log : History α) : Prop where
  served : served log <+: audience
  turns : turns log <+: listeners
  deeds : ∀ d ∈ log, d.Serves event ∨ d = .returned k (tally log)
  returned : ∀ delivery, .returned k delivery ∈ log →
    Bus.served log = audience ∧ Bus.turns log = listeners ∧ delivery = tally log

theorem Frame.Progress.course {f : Frame α ε} {listeners : List Nat} {done : History α}
    (hp : f.Progress listeners done) (k : Nat) : Course k f.event f.audience listeners done where
  served := ⟨f.targets, hp.served⟩
  turns := ⟨f.rest, hp.turns⟩
  deeds d hd := .inl (hp.serves d hd)
  returned _ hd := (hp.serves _ hd).elim

theorem Frame.Progress.course_of_isOver {f : Frame α ε} {listeners : List Nat} {done : History α}
    (hp : f.Progress listeners done) (ho : f.IsOver) (k : Nat) :
    Course k f.event f.audience listeners (done ++ [.returned k f.delivery]) := by
  have hserved : Bus.served (done ++ [.returned k f.delivery]) = f.audience := by
    have hall := hp.served
    rw [ho.targets, List.append_nil] at hall
    rw [Bus.served, filterMap_concat, ← hall]
    exact List.append_nil _
  have hturns : Bus.turns (done ++ [.returned k f.delivery]) = listeners := by
    have hall := hp.turns
    rw [ho.rest, List.append_nil] at hall
    rw [Bus.turns, filterMap_concat, ← hall]
    exact List.append_nil _
  have htally : f.delivery = Bus.tally (done ++ [.returned k f.delivery]) := by
    have hall := hp.tally
    rw [ho.calling] at hall
    rw [tally_append, ← hall]
    rfl
  refine ⟨hserved ▸ List.prefix_rfl, hturns ▸ List.prefix_rfl, fun d hd => ?_,
    fun delivery hd => ?_⟩
  · rw [← htally]
    exact (mem_concat.1 hd).imp_left (hp.serves d)
  · refine ⟨hserved, hturns, ?_⟩
    rcases mem_concat.1 hd with hold | hlast
    · exact (hp.serves _ hold).elim
    · cases hlast
      exact htally

variable {k : Nat} {within : List Nat} {topic : String} {event : α} {audience listeners : List Nat}

/-- An emit does nothing before it starts. -/
theorem Run.deedsOf_started
    (run : Run (.new capacity clock n)
      (h₁ ++ .started k within topic event audience listeners :: h₂) w) :
    deedsOf k (h₁ ++ .started k within topic event audience listeners :: h₂) =
      .started k within topic event audience listeners :: deedsOf k h₂ := by
  obtain ⟨w₁, -, run₁, -, -, hk, -⟩ := run.split
  rw [deedsOf_append, hk, run₁.emits.deedsOf_next, List.nil_append]
  exact List.filter_cons_of_pos (decide_eq_true rfl)

/-- **The course of an emit.**  Whatever happens meanwhile, an emit serves the inboxes that it has
found and gives the listeners that it has found their turns, in order and each once, and when it
returns it has done so for all of them and has counted it right. -/
theorem Run.course
    (run : Run (.new capacity clock n)
      (h₁ ++ .started k within topic event audience listeners :: h₂) w) :
    Course k event audience listeners (deedsOf k h₂) := by
  have he := run.emits
  have hlog := run.deedsOf_started
  have hlt : k < w.session.emits :=
    he.numbers _ (List.mem_append_right _ List.mem_cons_self) k rfl
  -- the emit is under way, or has returned
  rcases he.rest k hlt with hmem | ⟨f, log, hnumber, hover, ⟨_, _, _, done, rfl, hp⟩, hf⟩
  · obtain ⟨f, hf, hnumber⟩ := List.mem_map.1 hmem
    obtain ⟨_, _, _, done, hdone, hp⟩ := he.frames f hf
    rw [hnumber, hlog] at hdone
    cases hdone
    exact hp.course k
  · rw [hlog, List.cons_append] at hf
    obtain ⟨hstart, hrest⟩ := List.cons.inj hf
    cases hstart
    rw [hrest]
    exact hp.course_of_isOver hover _

end ScriptHost.Bus
