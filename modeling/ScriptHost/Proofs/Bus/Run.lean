import ScriptHost.Proofs.Bus.Step
import Mathlib.Data.List.Nodup

/-!
# Runs of a bus

`Threads.step` is one step of one of the threads that use a bus, chosen from outside.  A *run* is
any sequence of such steps, so that what holds after every run holds for every number of threads and
every interleaving of what they do, with emits inside of emits to any depth.  The history of a run
is the list of its deeds.

* `Run.invariant` — laws of a bus are proved by one case for each deed.
* `Run.script` — the run of a script that is alone is one of them.
* `Run.split` — what a deed found and did in the middle of a run.
* `Run.sound` — listeners and inboxes have numbers of their own, which all names and deeds refer to.
-/

set_option autoImplicit false

namespace ScriptHost.Bus

variable {α β ε : Type}

/-! ## Runs -/

theorem mem_concat {h : History α} {d d' : Deed α} : d' ∈ h ++ [d] ↔ d' ∈ h ∨ d' = d := by
  rw [List.mem_append, List.mem_singleton]

/-- The histories and states that can be reached. -/
inductive Run (start : Threads α ε) : History α → Threads α ε → Prop
  | start : Run start [] start
  | step {h : History α} {w w' : Threads α ε} (label : Threads.Label α ε) :
      Run start h w → w.step label = some w' → Run start (h ++ (w.deed? label).toList) w'

/-- The history and the state after these steps, if they can be taken. -/
def Threads.play (w : Threads α ε) : List (Threads.Label α ε) → Option (History α × Threads α ε)
  | [] => some ([], w)
  | label :: labels =>
    (w.step label).bind fun w' => (w'.play labels).map fun p => ((w.deed? label).toList ++ p.1, p.2)

theorem Run.of_play {start w w' : Threads α ε} {h h' : History α} (run : Run start h w)
    {labels : List (Threads.Label α ε)} (hp : w.play labels = some (h', w')) :
    Run start (h ++ h') w' := by
  induction labels generalizing h h' w with
  | nil =>
    cases hp
    rwa [List.append_nil]
  | cons label labels ih =>
    obtain ⟨w₁, hstep, hrest⟩ := Option.bind_eq_some_iff.1 hp
    obtain ⟨⟨h₁, w₂⟩, hplay, he⟩ := Option.map_eq_some_iff.1 hrest
    cases he
    rw [← List.append_assoc]
    exact ih (run.step label hstep) hplay

/-- Taking some steps finds a run. -/
theorem Run.exists_of_play (start : Threads α ε) (labels : List (Threads.Label α ε))
    (p : History α → Threads α ε → Prop) [∀ h w, Decidable (p h w)]
    (hp : (start.play labels).any (fun r => decide (p r.1 r.2)) = true) :
    ∃ h w, Run start h w ∧ p h w := by
  obtain ⟨⟨h, w⟩, hplay, hd⟩ := (Option.any_eq_true ..).1 hp
  exact ⟨h, w, Run.start.of_play hplay, of_decide_eq_true hd⟩

/-- **Laws of a bus are proved on its deeds.**  What holds of a bus that nobody has used yet, and
survives every step, whether it does a deed that fits or none, holds after every run. -/
theorem Run.invariant {start w : Threads α ε} {h : History α} (run : Run start h w)
    (law : History α → Threads α ε → Prop) (base : law [] start)
    (step : ∀ h w d w', Run start h w → law h w → w.Moves d w' →
      (∀ deed ∈ d, deed.Fits w.session) → law (h ++ d.toList) w') : law h w := by
  induction run with
  | start => exact base
  | step label run hstep ih =>
    exact step _ _ _ _ run ih (Threads.moves_of_step hstep) fun _ hd => Threads.fits_of_deed? hd

/-- A law of single deeds. -/
theorem Run.invariant_deed {start w : Threads α ε} {h : History α} (run : Run start h w)
    (law : History α → Threads α ε → Prop) (base : law [] start)
    (quiet : ∀ h w w', Run start h w → law h w → w.Moves none w' → law h w')
    (deed : ∀ h w d w', Run start h w → law h w → w.Moves (some d) w' → d.Fits w.session →
      law (h ++ [d]) w') : law h w := by
  refine run.invariant law base fun h w d w' run hl hm hd => ?_
  cases d with
  | none =>
    rw [Option.toList_none, List.append_nil]
    exact quiet h w w' run hl hm
  | some d => exact deed h w d w' run hl hm (hd d rfl)

/-- What a deed in a run found and did. -/
theorem Run.split {start w : Threads α ε} {h₁ h₂ : History α} {d : Deed α}
    (run : Run start (h₁ ++ d :: h₂) w) :
    ∃ w₁ w₂, Run start h₁ w₁ ∧ Run start (h₁ ++ [d]) w₂ ∧ w₁.Moves (some d) w₂ ∧
      d.Fits w₁.session := by
  generalize hh : h₁ ++ d :: h₂ = h at run
  induction run generalizing h₂ with
  | start => cases List.append_ne_nil_of_right_ne_nil h₁ (List.cons_ne_nil d h₂) hh
  | @step h w w' label run hstep ih =>
    have hm := Threads.moves_of_step hstep
    have run' := run.step label hstep
    cases hd : w.deed? label with
    | none =>
      rw [hd, Option.toList_none, List.append_nil] at hh
      exact ih hh
    | some d' =>
      rw [hd] at hm run' hh
      rw [Option.toList_some] at run' hh
      -- the deed is the last one of the run, or stands before it
      rcases List.eq_nil_or_concat h₂ with rfl | ⟨h₃, d₃, rfl⟩
      · obtain ⟨rfl, he⟩ := List.append_inj' hh rfl
        cases he
        exact ⟨w, w', run, run', hm, Threads.fits_of_deed? hd⟩
      · rw [List.concat_eq_append, ← List.cons_append, ← List.append_assoc] at hh
        exact ih (List.append_inj_left' hh rfl)

/-! ## A script that is alone -/

section

variable {start : Threads α ε} {h : History α} {s : Session α ε} {t : Thread α ε}

/-- Answering those who wait in the background is part of a run. -/
theorem Run.serve (run : Run start h ⟨s, [t]⟩) : ∃ h', Run start h' ⟨s.serve, [t]⟩ := by
  rw [Session.serve]
  generalize s.waiters = waiters
  induction waiters generalizing s h with
  | nil => exact ⟨h, run⟩
  | cons p waiters ih =>
    obtain ⟨task, waiter⟩ := p
    rw [List.foldl_cons]
    cases ha : s.answer? task with
    | none =>
      -- whoever has to go on waiting is passed over
      simp only [Option.getD_none, ha]
      exact ih run
    | some s' =>
      simp only [Option.getD_some, ha]
      have hstep : Threads.step ⟨s, [t]⟩ (.answer task) = some ⟨s', [t]⟩ :=
        congrArg (Option.map _) ha
      exact ih (run.step _ hstep)

theorem Run.passTo (run : Run start h ⟨s, [t]⟩) (instant : Nat) :
    ∃ h', Run start h' ⟨s.passTo instant, [t]⟩ := by
  have hpass : s.clock.advanceTo instant = s.clock.pass (instant - s.clock.now) := by
    simp only [Clock.advanceTo, Clock.pass, Clock.mk.injEq, and_true]
    omega
  rw [Session.passTo, hpass]
  exact (run.step (.pass (instant - s.clock.now)) rfl).serve

/-- **What a script that is alone does is a run with one thread.** -/
theorem Run.script (fuel : Nat) (run : Run start h ⟨s, [t]⟩) :
    ∃ h' t', Run start h' ⟨Session.run fuel t s, [t']⟩ := by
  induction fuel generalizing s t h with
  | zero => exact ⟨h, t, run⟩
  | succ fuel ih =>
    rw [Session.run]
    cases hs : s.step 0 t with
    | some p =>
      obtain ⟨t', s'⟩ := p
      have hstep : Threads.step ⟨s, [t]⟩ (.step 0) = some ⟨s', [t']⟩ := by
        rw [Threads.step]
        exact congrArg (Option.map _) hs
      obtain ⟨h', run'⟩ := (run.step _ hstep).serve
      exact ih run'
    | none =>
      cases hp : s.patience? t with
      | none => exact ⟨h, t, run⟩
      | some instant =>
        obtain ⟨h', run'⟩ := run.passTo instant
        exact ih run'

end

/-! ## Numbers -/

/-- Each number is given once, and the next one has not been given yet. -/
def Numbered (ids : List Nat) (next : Nat) : Prop := ids.Nodup ∧ ∀ id ∈ ids, id < next

theorem Numbered.append {ids new : List Nat} {next count : Nat} (h : Numbered ids next)
    (hnew : new = [] ∨ new = [next] ∧ 0 < count) : Numbered (ids ++ new) (next + count) := by
  rcases hnew with rfl | ⟨rfl, hcount⟩
  · rw [List.append_nil]
    exact ⟨h.1, fun id hid => Nat.lt_add_right count (h.2 id hid)⟩
  · refine ⟨List.nodup_append.2 ⟨h.1, List.nodup_singleton next, fun a ha b hb => ?_⟩,
      fun id hid => ?_⟩
    · rw [List.mem_singleton] at hb
      exact hb ▸ Nat.ne_of_lt (h.2 a ha)
    · rcases List.mem_append.1 hid with hold | hlast
      · exact Nat.lt_add_right count (h.2 id hold)
      · rw [List.mem_singleton] at hlast
        omega

/-- The inbox that gets an event or loses one, or is closed. -/
def Deed.inbox? : Deed α → Option Nat
  | offered _ id _ _ | taken id _ | closed id => some id
  | _ => none

theorem State.mem_contents {s : State α β} {id : Nat} {i : Inbox α} (h : s.inbox? id = some i) :
    i.unowned ∈ s.contents ∧ i.id = id := by
  refine ⟨List.mem_map_of_mem (List.mem_of_find?_eq_some h), ?_⟩
  have hid := List.find?_some h
  exact of_decide_eq_true hid

theorem Deed.Fits.mem_contents {s : Session α ε} {d : Deed α} (h : d.Fits s) (hk : s.Known)
    {id : Nat} (hid : d.inbox? = some id) : id ∈ s.bus.contents.map (·.id) := by
  cases d with
  | offered | taken =>
    cases hid
    obtain ⟨i, hi, -⟩ := h
    obtain ⟨hmem, rfl⟩ := State.mem_contents hi
    exact List.mem_map.2 ⟨_, hmem, rfl⟩
  | closed =>
    cases hid
    obtain ⟨name, hname⟩ := h
    exact hk.subscribers name _ hname
  | _ => cases hid

theorem Deed.Fits.mem_listing {s : Session α ε} {id : Nat} (h : (deactivated id : Deed α).Fits s)
    (hk : s.Known) : id ∈ s.bus.listing.map (·.id) := by
  obtain ⟨name, hname⟩ := h
  exact hk.handles name id hname

/-- Listeners and inboxes have numbers of their own, and what names and deeds refer to exists. -/
structure Sound (h : History α) (w : Threads α ε) : Prop where
  known : w.session.Known
  inboxes : Numbered (w.session.bus.contents.map (·.id)) w.session.bus.nextId
  listeners : Numbered (w.session.bus.listing.map (·.id)) w.session.bus.nextId
  inbox_mem : ∀ d ∈ h, ∀ id, d.inbox? = some id → id ∈ w.session.bus.contents.map (·.id)
  listener_mem : ∀ id, .deactivated id ∈ h → id ∈ w.session.bus.listing.map (·.id)
  subscribed_mem : ∀ id topics, .subscribed id topics ∈ h →
    id ∈ w.session.bus.contents.map (·.id)
  registered_mem : ∀ id topic, .registered id topic ∈ h →
    id ∈ w.session.bus.listing.map (·.id)

theorem Acts.ids {s s' : State α β} {d : Deed α} (h : Acts s (some d) s') :
    s'.contents.map (·.id) = s.contents.map (·.id) ++ d.newInboxes.map (·.id) ∧
      s'.listing.map (·.id) = s.listing.map (·.id) ++ d.newRegistrations.map (·.id) := by
  rw [h.contents, h.listing]
  simp

theorem Sound.quiet {h : History α} {w w' : Threads α ε} (hs : Sound h w) (hm : w.Moves none w') :
    Sound h w' where
  known := hm.known hs.known
  inboxes := by
    rw [hm.acts.contents, hm.acts.nextId]
    exact hs.inboxes
  listeners := by
    rw [hm.acts.listing, hm.acts.nextId]
    exact hs.listeners
  inbox_mem d hd id hid := hm.acts.mem_contents (hs.inbox_mem d hd id hid)
  listener_mem id hid := hm.acts.mem_listing (hs.listener_mem id hid)
  subscribed_mem id topics hid := hm.acts.mem_contents (hs.subscribed_mem id topics hid)
  registered_mem id topic hid := hm.acts.mem_listing (hs.registered_mem id topic hid)

theorem Sound.deed {h : History α} {w w' : Threads α ε} {d : Deed α} (hs : Sound h w)
    (hm : w.Moves (some d) w') (hd : d.Fits w.session) : Sound (h ++ [d]) w' where
  known := hm.known hs.known
  inboxes := by
    rw [hm.acts.ids.1, hm.acts.nextId]
    refine hs.inboxes.append ?_
    cases d with
    | subscribed id topics =>
      cases hd
      exact .inr ⟨rfl, Nat.one_pos⟩
    | _ => exact .inl rfl
  listeners := by
    rw [hm.acts.ids.2, hm.acts.nextId]
    refine hs.listeners.append ?_
    cases d with
    | registered id topic =>
      cases hd
      exact .inr ⟨rfl, Nat.one_pos⟩
    | _ => exact .inl rfl
  inbox_mem d' hd' id hid := by
    rcases mem_concat.1 hd' with hold | rfl
    · exact hm.acts.mem_contents (hs.inbox_mem d' hold id hid)
    · exact hm.acts.mem_contents (hd.mem_contents hs.known hid)
  listener_mem id hid := by
    rcases mem_concat.1 hid with hold | rfl
    · exact hm.acts.mem_listing (hs.listener_mem id hold)
    · exact hm.acts.mem_listing (hd.mem_listing hs.known)
  subscribed_mem id topics hid := by
    rcases mem_concat.1 hid with hold | rfl
    · exact hm.acts.mem_contents (hs.subscribed_mem id topics hold)
    · rw [hm.acts.ids.1]
      exact List.mem_append_right _ List.mem_cons_self
  registered_mem id topic hid := by
    rcases mem_concat.1 hid with hold | rfl
    · exact hm.acts.mem_listing (hs.registered_mem id topic hold)
    · rw [hm.acts.ids.2]
      exact List.mem_append_right _ List.mem_cons_self

variable {capacity n : Nat} {clock : Clock} {h : History α} {w : Threads α ε}

theorem Run.sound (run : Run (.new capacity clock n) h w) : Sound h w :=
  run.invariant_deed Sound
    { known := ⟨nofun, nofun⟩
      inboxes := ⟨.nil, nofun⟩
      listeners := ⟨.nil, nofun⟩
      inbox_mem := nofun
      listener_mem := nofun
      subscribed_mem := nofun
      registered_mem := nofun }
    (fun _ _ _ _ hs hm => hs.quiet hm) (fun _ _ _ _ _ hs hm hd => hs.deed hm hd)

theorem Run.capacity_eq (run : Run (.new capacity clock n) h w) :
    w.session.bus.capacity = max capacity 1 :=
  run.invariant (fun _ w => w.session.bus.capacity = max capacity 1) rfl
    fun _ _ _ _ _ he hm _ => hm.acts.capacity.trans he

end ScriptHost.Bus
