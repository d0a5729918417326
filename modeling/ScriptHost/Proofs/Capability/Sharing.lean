import ScriptHost.Capability.Registry
import ScriptHost.Proofs.Capability.Slots
import Mathlib.Data.List.Perm.Subperm

/-!
# What is built once

Callers that ask for the same key share one thing, whatever they do at the same time.  The builds of
a run are what the callers have been told of them, and the table follows from those that have
succeeded (`Accounts`).

Censuses take the locks as well, for a moment, but wait for none.  So what they count has been
built; but they miss what somebody else holds the lock of, be it only to look.

* `sharing_of_run` — what holds after every run, and of every further step.
* `Run.shared` — a caller that is alone does what `SlotTable.shared` does in one go.
* `Run.count` — a census that is alone comes to `SlotTable.count`.
-/

set_option autoImplicit false

namespace ScriptHost

variable {κ α : Type} [DecidableEq κ]

namespace SlotCalls

/-! ## What holds in a run -/

/-- The things that have been built, with their keys. -/
def succeeded (builds : List (κ × Outcome α)) : List (κ × α) :=
  builds.filterMap fun p => p.2.toOption.map (p.1, ·)

omit [DecidableEq κ] in
theorem mem_succeeded {builds : List (κ × Outcome α)} {k : κ} {a : α} :
    (k, a) ∈ succeeded builds ↔ (k, .ok a) ∈ builds := by
  rw [succeeded, List.mem_filterMap]
  constructor
  · rintro ⟨⟨k', r⟩, hmem, hr⟩
    cases r <;> cases hr
    exact hmem
  · exact fun hmem => ⟨_, hmem, rfl⟩

omit [DecidableEq κ] in
theorem succeeded_append (builds more : List (κ × Outcome α)) :
    succeeded (builds ++ more) = succeeded builds ++ succeeded more :=
  List.filterMap_append

/-- What a table holds is what has been built, once under each key. -/
structure Accounts (builds : List (κ × Outcome α)) (t : SlotTable κ α) : Prop where
  single : t.Single
  succeeded : ∀ k a, (k, a) ∈ SlotCalls.succeeded builds ↔ (t.slot k).content = some a
  once : ((SlotCalls.succeeded builds).map (·.1)).Nodup

namespace Accounts

variable {builds : List (κ × Outcome α)} {t t' : SlotTable κ α}

theorem moves (h : Accounts builds t) {holder : SlotHolder} {key : κ} {d : Option (Outcome α)}
    (hm : t.Moves holder key d t') : Accounts (builds ++ (d.map (key, ·)).toList) t' where
  single := hm.single h.single
  succeeded k a := by
    rw [hm.content_iff, succeeded_append, List.mem_append, h.succeeded, mem_succeeded,
      Option.mem_toList, Option.map_eq_some_iff]
    simp [eq_comm, and_comm]
  once := by
    cases hd : d with
    | none => exact (List.append_nil builds).symm ▸ h.once
    | some r =>
      have hempty := hm.course.empty_of_ends hd
      have hnot : key ∉ (SlotCalls.succeeded builds).map (·.1) := by
        intro hin
        obtain ⟨⟨k, a⟩, hmem, rfl⟩ := List.mem_map.1 hin
        rw [(h.succeeded _ a).1 hmem] at hempty
        cases hempty
      rw [succeeded_append, List.map_append, List.nodup_append_comm]
      cases r with
      | ok a => exact List.nodup_cons.2 ⟨hnot, h.once⟩
      | error f => exact h.once

/-- As many things are there as builds have succeeded. -/
theorem length_built (h : Accounts builds t) :
    t.built.length = (SlotCalls.succeeded builds).length := by
  have hperm : t.built.Perm (SlotCalls.succeeded builds) := by
    refine (List.perm_ext_iff_of_nodup (SlotTable.nodup_built h.single) h.once.of_map).2 ?_
    rintro ⟨k, a⟩
    rw [SlotTable.mem_built h.single, h.succeeded]
  exact hperm.length_eq

end Accounts

/-- Somebody holds the lock of a key, and is about to give it back or builds. -/
def Holds (s : SlotCalls κ α) (k : κ) : SlotHolder → Prop
  | .caller id => ∃ c ∈ s.calls, c.id = id ∧ c.key = k ∧ c.phase.Locks
  | .census id => ∃ c ∈ s.censuses, c.id = id ∧ c.holding = true ∧ c.ahead.head? = some k

/-- What holds after these builds. -/
structure Kept (builds : List (κ × Outcome α)) (s : SlotCalls κ α) : Prop where
  accounts : Accounts builds s.table
  ids : s.calls.map (·.id) = List.range s.calls.length
  censusIds : s.censuses.map (·.id) = List.range s.censuses.length
  calls : ∀ c ∈ s.calls, c.Fits s.table
  censuses : ∀ c ∈ s.censuses, c.Fits s.table
  holds : ∀ k h, (s.table.slot k).holder = some h → s.Holds k h

/-- Where one of many is replaced, the others stay. -/
theorem mem_replaced {β : Type} {l : List β} {id : β → Nat} (hnodup : (l.map id).Nodup) {x y : β}
    (hx : x ∈ l) {f : β → β} (hy : y ∈ l.map fun z => if id z = id x then f z else z) :
    (y ∈ l ∧ id y ≠ id x) ∨ y = f x := by
  obtain ⟨z, hz, rfl⟩ := List.mem_map.1 hy
  by_cases hid : id z = id x
  · rw [if_pos hid, List.inj_on_of_nodup_map hnodup hz hx hid]
    exact .inr rfl
  · rw [if_neg hid]
    exact .inl ⟨hz, hid⟩

namespace Kept

variable {builds : List (κ × Outcome α)} {s : SlotCalls κ α}

/-- Callers have numbers of their own. -/
theorem eq_of_id (h : Kept builds s) {c c' : SlotCall κ α} (hc : c ∈ s.calls) (hc' : c' ∈ s.calls)
    (hid : c.id = c'.id) : c = c' :=
  List.inj_on_of_nodup_map (h.ids ▸ List.nodup_range) hc hc' hid

/-- Censuses have numbers of their own. -/
theorem census_eq_of_id (h : Kept builds s) {c c' : Census κ} (hc : c ∈ s.censuses)
    (hc' : c' ∈ s.censuses) (hid : c.id = c'.id) : c = c' :=
  List.inj_on_of_nodup_map (h.censusIds ▸ List.nodup_range) hc hc' hid

/-- When a caller goes on the others stay where they are. -/
theorem mem_setPhase (h : Kept builds s) {c c' : SlotCall κ α} (hc : c ∈ s.calls)
    {table : SlotTable κ α} {phase : SlotPhase α}
    (hc' : c' ∈ ({ s with table }.setPhase c.id phase).calls) :
    (c' ∈ s.calls ∧ c'.id ≠ c.id) ∨ c' = { c with phase } :=
  mem_replaced (f := fun c => { c with phase }) (h.ids ▸ List.nodup_range) hc hc'

omit [DecidableEq κ] in
theorem setPhase_mem {c : SlotCall κ α} (hc : c ∈ s.calls) (table : SlotTable κ α)
    (phase : SlotPhase α) :
    { c with phase } ∈ ({ s with table }.setPhase c.id phase).calls :=
  List.mem_map.2 ⟨c, hc, if_pos rfl⟩

omit [DecidableEq κ] in
theorem setPhase_mem_of_ne {c : SlotCall κ α} (hc : c ∈ s.calls) (table : SlotTable κ α) {id : Nat}
    (hid : c.id ≠ id) (phase : SlotPhase α) : c ∈ ({ s with table }.setPhase id phase).calls :=
  List.mem_map.2 ⟨c, hc, if_neg hid⟩

/-- When a census goes on the others stay where they are. -/
theorem mem_setCensus (h : Kept builds s) {c c' c₀ : Census κ} (hc : c ∈ s.censuses)
    (hid : c'.id = c.id) {table : SlotTable κ α}
    (hc₀ : c₀ ∈ ({ s with table }.setCensus c').censuses) :
    (c₀ ∈ s.censuses ∧ c₀.id ≠ c.id) ∨ c₀ = c' :=
  mem_replaced (f := fun _ => c') (h.censusIds ▸ List.nodup_range) hc (hid ▸ hc₀)

omit [DecidableEq κ] in
theorem setCensus_mem {c c' : Census κ} (hc : c ∈ s.censuses) (hid : c'.id = c.id)
    (table : SlotTable κ α) : c' ∈ ({ s with table }.setCensus c').censuses :=
  List.mem_map.2 ⟨c, hc, if_pos hid.symm⟩

omit [DecidableEq κ] in
theorem setCensus_mem_of_ne {c₀ c' : Census κ} (hc₀ : c₀ ∈ s.censuses) (hid : c₀.id ≠ c'.id)
    (table : SlotTable κ α) : c₀ ∈ ({ s with table }.setCensus c').censuses :=
  List.mem_map.2 ⟨c₀, hc₀, if_neg hid⟩

theorem arrive (h : Kept builds s) (key : κ) :
    Kept builds { s with calls := s.calls ++ [⟨s.calls.length, key, .arrived⟩] } where
  accounts := h.accounts
  ids := by
    rw [List.map_append, h.ids, List.length_append, List.length_singleton, List.range_succ]
    rfl
  censusIds := h.censusIds
  calls c hc := by
    rcases List.mem_append.1 hc with hold | hnew
    · exact h.calls c hold
    · rw [List.mem_singleton.1 hnew]
      exact ⟨fun hp => absurd rfl hp, nofun, nofun, nofun⟩
  censuses := h.censuses
  holds k holder hk := by
    have hheld := h.holds k holder hk
    cases holder with
    | caller id =>
      obtain ⟨c, hc, hcall⟩ := hheld
      exact ⟨c, List.mem_append_left _ hc, hcall⟩
    | census id => exact hheld

theorem census (h : Kept builds s) {order : List κ}
    (horder : order.Perm (s.table.slots.map (·.1))) :
    Kept builds { s with
      censuses := s.censuses ++ [{ id := s.censuses.length, ahead := order }] } where
  accounts := h.accounts
  ids := h.ids
  censusIds := by
    rw [List.map_append, h.censusIds, List.length_append, List.length_singleton, List.range_succ]
    rfl
  calls := h.calls
  censuses c hc := by
    rcases List.mem_append.1 hc with hold | hnew
    · exact h.censuses c hold
    · rw [List.mem_singleton.1 hnew]
      exact ⟨fun k hk => SlotTable.has_iff.2 (horder.subset hk), nofun,
        horder.nodup_iff.2 h.accounts.single, nofun⟩
  holds k holder hk := by
    have hheld := h.holds k holder hk
    cases holder with
    | caller id => exact hheld
    | census id =>
      obtain ⟨c, hc, hcensus⟩ := hheld
      exact ⟨c, List.mem_append_left _ hc, hcensus⟩

theorem turn (h : Kept builds s) {c : SlotCall κ α} (hc : c ∈ s.calls)
    {d : Option (Outcome α)} {table : SlotTable κ α} {phase : SlotPhase α}
    (ht : Turn s.table c d table phase) :
    Kept (builds ++ (d.map (c.key, ·)).toList) ({ s with table }.setPhase c.id phase) := by
  have hfit := h.calls c hc
  have hmoves := ht.moves hfit
  constructor
  case accounts => exact h.accounts.moves hmoves
  case ids =>
    have hsame : ({ s with table }.setPhase c.id phase).calls.map SlotCall.id =
        s.calls.map SlotCall.id := by
      rw [setPhase, List.map_map]
      refine List.map_congr_left fun c₀ _ => ?_
      simp only [Function.comp_apply]
      split <;> rfl
    rw [hsame, h.ids, setPhase, List.length_map]
  case censusIds => exact h.censusIds
  case calls =>
    intro c' hc'
    rcases h.mem_setPhase hc hc' with ⟨hmem, hne⟩ | rfl
    · exact (h.calls c' hmem).moves hmoves fun he => hne (SlotHolder.caller.inj he)
    · exact ht.fits hfit
  case censuses => exact fun c' hc' => (h.censuses c' hc').moves hmoves SlotHolder.noConfusion
  case holds =>
    -- whoever has held a lock and has not gone on holds it still
    have hkeep {k : κ} {h' : SlotHolder} (hk : (s.table.slot k).holder = some h')
        (hne : h' ≠ .caller c.id) : ({ s with table }.setPhase c.id phase).Holds k h' := by
      have hheld := h.holds k h' hk
      cases h' with
      | caller id =>
        obtain ⟨c₀, hmem, rfl, hcall⟩ := hheld
        exact ⟨c₀, setPhase_mem_of_ne hmem table (fun he => hne (congrArg _ he)) phase, rfl, hcall⟩
      | census id => exact hheld
    have hwas {k : κ} (hk : (s.table.slot k).holder = some (.caller c.id)) :
        c.key = k ∧ c.phase.Locks := by
      obtain ⟨c₀, hmem, hid, hcall⟩ := h.holds k _ hk
      obtain rfl := h.eq_of_id hmem hc hid
      exact hcall
    intro k h' (hk : (table.slot k).holder = some h')
    by_cases hne : h' = .caller c.id
    · subst hne
      obtain rfl : k = c.key := by
        by_contra hkey
        rw [hmoves.other k hkey] at hk
        exact hkey (hwas hk).1.symm
      exact ⟨_, setPhase_mem hc table phase, rfl, rfl, ht.locks hfit hk fun hk => (hwas hk).2⟩
    · exact hkeep (hmoves.eq_of_holds hk hne ▸ hk) hne

theorem visit (h : Kept builds s) {c c' : Census κ} (hc : c ∈ s.censuses) {key : κ}
    {table : SlotTable κ α} (hv : Visit s.table c key table c') :
    Kept builds ({ s with table }.setCensus c') := by
  have hfit := h.censuses c hc
  have hmoves := hv.moves hfit
  have hid := hv.id_eq
  constructor
  case accounts => exact List.append_nil builds ▸ h.accounts.moves hmoves
  case ids => exact h.ids
  case censusIds =>
    have hsame : ({ s with table }.setCensus c').censuses.map Census.id =
        s.censuses.map Census.id := by
      rw [setCensus, List.map_map]
      refine List.map_congr_left fun c₀ _ => ?_
      simp only [Function.comp_apply]
      split
      · rename_i heq
        exact heq.symm
      · rfl
    rw [hsame, h.censusIds, setCensus, List.length_map]
  case calls => exact fun c' hc' => (h.calls c' hc').moves hmoves nofun
  case censuses =>
    intro c₀ hc₀
    rcases h.mem_setCensus hc hid hc₀ with ⟨hmem, hne⟩ | rfl
    · exact (h.censuses c₀ hmem).moves hmoves fun he => hne (SlotHolder.census.inj he)
    · exact hv.fits hfit
  case holds =>
    -- whoever has held a lock and has not gone on holds it still
    have hkeep {k : κ} {h' : SlotHolder} (hk : (s.table.slot k).holder = some h')
        (hne : h' ≠ .census c.id) : ({ s with table }.setCensus c').Holds k h' := by
      have hheld := h.holds k h' hk
      cases h' with
      | caller id => exact hheld
      | census id =>
        obtain ⟨c₀, hmem, rfl, hcensus⟩ := hheld
        exact ⟨c₀, setCensus_mem_of_ne hmem (fun he => hne (congrArg _ (he.trans hid))) table, rfl,
          hcensus⟩
    have hwas {k : κ} (hk : (s.table.slot k).holder = some (.census c.id)) :
        c.holding = true ∧ c.ahead.head? = some k := by
      obtain ⟨c₀, hmem, hid, hcensus⟩ := h.holds k _ hk
      obtain rfl := h.census_eq_of_id hmem hc hid
      exact hcensus
    intro k h' (hk : (table.slot k).holder = some h')
    by_cases hne : h' = .census c.id
    · subst hne
      obtain rfl : k = key := by
        by_contra hkey
        rw [hmoves.other k hkey] at hk
        exact hkey (Option.some.inj ((hwas hk).2.symm.trans hv.head_eq))
      exact ⟨_, setCensus_mem hc hid table, hid, hv.holds hfit hk fun hk => (hwas hk).1⟩
    · exact hkeep (hmoves.eq_of_holds hk hne ▸ hk) hne

/-- **Every step keeps** what holds of a table and its callers. -/
theorem does (h : Kept builds s) {build : Option (κ × Outcome α)} {s' : SlotCalls κ α}
    (hdoes : Does s build s') : Kept (builds ++ build.toList) s' := by
  cases hdoes with
  | arrive key => exact (List.append_nil builds).symm ▸ h.arrive key
  | turn hc ht => exact h.turn hc ht
  | census horder => exact (List.append_nil builds).symm ▸ h.census horder
  | visit hc hv => exact (List.append_nil builds).symm ▸ h.visit hc hv

end Kept

/-! ## Runs -/

/-- The builds and the states that can be reached from a table on which nobody has called. -/
inductive Run : List (κ × Outcome α) → SlotCalls κ α → Prop
  | start : Run [] {}
  | step {builds : List (κ × Outcome α)} {s s' : SlotCalls κ α} (label : Label κ α) :
      Run builds s → s.step label = some s' → Run (builds ++ (s.build? label).toList) s'

variable {builds : List (κ × Outcome α)} {s : SlotCalls κ α}

theorem Run.kept (run : Run builds s) : Kept builds s := by
  induction run with
  | start =>
    exact {
      accounts := ⟨.nil, fun k a => ⟨nofun, nofun⟩, .nil⟩
      ids := rfl
      censusIds := rfl
      calls := nofun
      censuses := nofun
      holds := nofun }
  | step label _ hstep ih => exact ih.does (does_of_step hstep)

namespace Kept

/-- A caller is found by its number. -/
theorem find? (h : Kept builds s) {c : SlotCall κ α} (hc : c ∈ s.calls) :
    s.calls.find? (·.id = c.id) = some c := by
  have hsome : (s.calls.find? (·.id = c.id)).isSome = true :=
    List.find?_isSome.2 ⟨c, hc, decide_eq_true rfl⟩
  obtain ⟨c', hc'⟩ := Option.isSome_iff_exists.1 hsome
  have hid : c'.id = c.id := by simpa using List.find?_some hc'
  rw [hc', h.eq_of_id (List.mem_of_find?_eq_some hc') hc hid]

/-- A census is found by its number. -/
theorem findCensus? (h : Kept builds s) {c : Census κ} (hc : c ∈ s.censuses) :
    s.censuses.find? (·.id = c.id) = some c := by
  have hsome : (s.censuses.find? (·.id = c.id)).isSome = true :=
    List.find?_isSome.2 ⟨c, hc, decide_eq_true rfl⟩
  obtain ⟨c', hc'⟩ := Option.isSome_iff_exists.1 hsome
  have hid : c'.id = c.id := by simpa using List.find?_some hc'
  rw [hc', h.census_eq_of_id (List.mem_of_find?_eq_some hc') hc hid]

/-- Whoever has been answered is not asked to do anything more. -/
theorem returned_of_step (h : Kept builds s) {s' : SlotCalls κ α} {label : Label κ α}
    (hstep : s.step label = some s') {c : SlotCall κ α} (hc : c ∈ s.calls) {r : Outcome α}
    (hp : c.phase = .returned r) : c ∈ s'.calls := by
  have hdoes := does_of_step hstep
  generalize s.build? label = build at hdoes
  cases hdoes with
  | arrive key => exact List.mem_append_left _ hc
  | turn hc' ht =>
    refine setPhase_mem_of_ne hc _ (fun hid => ?_) _
    obtain rfl := h.eq_of_id hc hc' hid
    exact ht.phase_ne r hp
  | census | visit => exact hc

/-- What has been built stays. -/
theorem content_of_step (h : Kept builds s) {s' : SlotCalls κ α} {label : Label κ α}
    (hstep : s.step label = some s') {k : κ} {a : α} (hk : (s.table.slot k).content = some a) :
    (s'.table.slot k).content = some a := by
  have hdoes := does_of_step hstep
  generalize s.build? label = build at hdoes
  cases hdoes with
  | arrive | census => exact hk
  | turn hc ht => exact (ht.moves (h.calls _ hc)).content hk
  | visit hc hv => exact (hv.moves (h.censuses _ hc)).content hk

/-- A caller can take its turn. -/
theorem step_of_turn (h : Kept builds s) {c : SlotCall κ α} (hc : c ∈ s.calls)
    {d : Option (Outcome α)} {table : SlotTable κ α} {phase : SlotPhase α}
    (ht : Turn s.table c d table phase) :
    ∃ label, s.step label = some ({ s with table }.setPhase c.id phase) ∧
      s.build? label = d.map (c.key, ·) := by
  have hfind := h.find? hc
  cases ht with
  | find hp => exact ⟨.find c.id, by simp [step, hfind, hp], rfl⟩
  | lock hp hs => exact ⟨.lock c.id, by simp [step, hfind, hp, hs], rfl⟩
  | share hp hs => exact ⟨.look c.id, by simp [step, hfind, hp, hs], rfl⟩
  | begin hp hs => exact ⟨.look c.id, by simp [step, hfind, hp, hs], rfl⟩
  | finish hp r => exact ⟨.finish c.id r, by simp [step, hfind, hp], by simp [build?, hfind]⟩

/-- A census can go on. -/
theorem step_of_visit (h : Kept builds s) {c c' : Census κ} (hc : c ∈ s.censuses) {key : κ}
    {table : SlotTable κ α} (hv : Visit s.table c key table c') :
    ∃ label, s.step label = some ({ s with table }.setCensus c') ∧ s.build? label = none := by
  have hfind := h.findCensus? hc
  cases hv with
  | pass hahead hholding hs =>
    exact ⟨.peek c.id, by simp [step, hfind, hahead, hholding, hs], rfl⟩
  | take hahead hholding hs =>
    exact ⟨.peek c.id, by simp [step, hfind, hahead, hholding, hs], rfl⟩
  | tally hahead hholding => exact ⟨.tally c.id, by simp [step, hfind, hahead, hholding], rfl⟩

end Kept

namespace Run

theorem turn (run : Run builds s) {c : SlotCall κ α} (hc : c ∈ s.calls)
    {d : Option (Outcome α)} {table : SlotTable κ α} {phase : SlotPhase α}
    (ht : Turn s.table c d table phase) :
    Run (builds ++ (d.map (c.key, ·)).toList) ({ s with table }.setPhase c.id phase) := by
  obtain ⟨label, hstep, hbuild⟩ := run.kept.step_of_turn hc ht
  exact hbuild ▸ run.step label hstep

theorem visit (run : Run builds s) {c c' : Census κ} (hc : c ∈ s.censuses) {key : κ}
    {table : SlotTable κ α} (hv : Visit s.table c key table c') :
    ∃ s', Run builds s' ∧ s'.table = table ∧ c' ∈ s'.censuses := by
  obtain ⟨label, hstep, hbuild⟩ := run.kept.step_of_visit hc hv
  have run' := run.step label hstep
  rw [hbuild, Option.toList_none, List.append_nil] at run'
  exact ⟨_, run', rfl, Kept.setCensus_mem hc hv.id_eq table⟩

/-- **A caller that is alone, or at least finds the lock free, does what `SlotTable.shared` does in
one go.** -/
theorem shared {σ : Type} (run : Run builds s) (key : κ) (build : σ → Outcome α × σ) (x : σ)
    (hfree : (s.table.slot key).holder = none) :
    ∃ builds' s', Run builds' s' ∧ s'.table = (s.table.shared key build x).2.1 ∧
      ∃ c ∈ s'.calls, c.key = key ∧ c.phase = .returned (s.table.shared key build x).1 := by
  obtain ⟨builds₁, s₁, id, run₁, htable, hc₁⟩ : ∃ builds₁ s₁ id, Run builds₁ s₁ ∧
      s₁.table = s.table ∧ (⟨id, key, .arrived⟩ : SlotCall κ α) ∈ s₁.calls :=
    ⟨_, _, _, run.step (.arrive key) rfl, rfl, List.mem_append_right _ List.mem_cons_self⟩
  rw [← htable] at hfree ⊢
  have hslot := s₁.table.slot_find key key
  have hhas := s₁.table.has_find key
  have run₂ := run₁.turn hc₁ (.find rfl)
  have hc₂ := Kept.setPhase_mem hc₁ (s₁.table.find key) .found
  have run₃ := run₂.turn hc₂ (.lock rfl (hslot ▸ hfree))
  have hc₃ := Kept.setPhase_mem hc₂
    ((s₁.table.find key).setHolder key (some (.caller id))) .looking
  have hcontent := SlotTable.content_setHolder hhas (some (.caller id))
  rw [hslot] at hcontent
  simp only [SlotTable.shared, hslot]
  cases hs : (s₁.table.slot key).content with
  | some a =>
    have run₄ := run₃.turn hc₃ (.share rfl (hcontent.trans hs))
    exact ⟨_, _, run₄, SlotTable.setHolder_setHolder_none run₂.kept.accounts.single hhas
      (hslot ▸ hfree) _, _, Kept.setPhase_mem hc₃ _ _, rfl, rfl⟩
  | none =>
    have run₄ := run₃.turn hc₃ (.begin rfl (hcontent.trans hs))
    have hc₄ := Kept.setPhase_mem hc₃
      ((s₁.table.find key).setHolder key (some (.caller id))) .building
    have run₅ := run₄.turn hc₄ (.finish rfl (build x).1)
    exact ⟨_, _, run₅, SlotTable.set_setHolder .., _, Kept.setPhase_mem hc₄ _ _, rfl, rfl⟩

/-- A census goes past a slot while everybody else stands still. -/
theorem pass (run : Run builds s) {id : Nat} {key : κ} {ahead counted : List κ}
    (hc : ⟨id, key :: ahead, false, counted⟩ ∈ s.censuses) :
    ∃ s', Run builds s' ∧ s'.table = s.table ∧
      ⟨id, ahead, false, if (s.table.slot key).isOpen then counted ++ [key] else counted⟩ ∈
        s'.censuses := by
  cases hs : (s.table.slot key).holder with
  | some holder =>
    rw [if_neg (by simp [Slot.isOpen, hs])]
    exact run.visit hc (.pass rfl rfl hs)
  | none =>
    have hhas := (run.kept.censuses _ hc).found key List.mem_cons_self
    have hlocked := SlotTable.slot_setHolder hhas (some (.census id))
    obtain ⟨s₁, run₁, htable₁, hc₁⟩ := run.visit hc (.take rfl rfl hs)
    obtain ⟨s₂, run₂, htable₂, hc₂⟩ := run₁.visit hc₁ (.tally rfl rfl)
    refine ⟨s₂, run₂, ?_, ?_⟩
    · rw [htable₂, htable₁]
      exact SlotTable.setHolder_setHolder_none run.kept.accounts.single hhas hs _
    · rw [htable₁, hlocked] at hc₂
      simpa [Slot.isOpen, hs] using hc₂

/-- A census gets to its end while everybody else stands still. -/
theorem toEnd (run : Run builds s) {id : Nat} {ahead counted : List κ}
    (hc : ⟨id, ahead, false, counted⟩ ∈ s.censuses) :
    ∃ s', Run builds s' ∧ s'.table = s.table ∧
      ⟨id, [], false, counted ++ ahead.filter fun k => (s.table.slot k).isOpen⟩ ∈ s'.censuses := by
  induction ahead generalizing s counted with
  | nil =>
    rw [List.filter_nil, List.append_nil]
    exact ⟨s, run, rfl, hc⟩
  | cons key ahead ih =>
    obtain ⟨s₁, run₁, htable₁, hc₁⟩ := run.pass hc
    obtain ⟨s', run', htable, hc'⟩ := ih run₁ hc₁
    rw [htable₁] at htable hc'
    refine ⟨s', run', htable, ?_⟩
    rw [List.filter_cons]
    split at hc' <;> rename_i hopen
    · rw [if_pos hopen]
      rwa [List.append_assoc] at hc'
    · rw [if_neg hopen]
      exact hc'

/-- **A census that is alone** comes to `SlotTable.count`. -/
theorem count (run : Run builds s) :
    ∃ s', Run builds s' ∧ s'.table = s.table ∧
      ∃ c ∈ s'.censuses, c.ahead = [] ∧ c.counted.length = s.table.count := by
  have hstep : s.step (.census (s.table.slots.map (·.1))) = some { s with
      censuses := s.censuses ++
        [{ id := s.censuses.length, ahead := s.table.slots.map (·.1) }] } :=
    if_pos (List.isPerm_iff.2 (.refl _))
  have run₁ := run.step _ hstep
  rw [show s.build? (.census _) = none from rfl, Option.toList_none, List.append_nil] at run₁
  obtain ⟨s', run', htable, hc⟩ := run₁.toEnd (List.mem_append_right _ List.mem_cons_self)
  refine ⟨s', run', htable, _, hc, rfl, ?_⟩
  rw [List.nil_append, ← List.countP_eq_length_filter, List.countP_map, SlotTable.count]
  refine List.countP_congr fun entry hmem => ?_
  obtain ⟨k, slot⟩ := entry
  have hslot : s.table.slot k = slot := by
    rw [SlotTable.slot, (Keyed.lookup_eq_some run.kept.accounts.single).2 hmem]
    rfl
  rw [← hslot]
  rfl

end Run

/-- The builds and the states to which further steps lead, each of them out of a state with `P`. -/
inductive Later (P : SlotCalls κ α → Prop) (s : SlotCalls κ α) :
    List (κ × Outcome α) → SlotCalls κ α → Prop
  | refl : Later P s [] s
  | step {more : List (κ × Outcome α)} {s' s'' : SlotCalls κ α} (label : Label κ α) :
      Later P s more s' → P s' → s'.step label = some s'' →
        Later P s (more ++ (s'.build? label).toList) s''

theorem Later.run {P : SlotCalls κ α → Prop} {more : List (κ × Outcome α)} {s' : SlotCalls κ α}
    (hlater : Later P s more s') (run : Run builds s) : Run (builds ++ more) s' := by
  induction hlater with
  | refl => exact (List.append_nil builds).symm ▸ run
  | step label _ _ hstep ih => exact List.append_assoc .. ▸ ih.step label hstep

/-- Where something has been built, nobody holds the lock but this census. -/
def LeftTo (id : Nat) (s : SlotCalls κ α) : Prop :=
  ∀ k a h, (s.table.slot k).content = some a → (s.table.slot k).holder = some h → h = .census id

/-- A census to which everything is left passes over nothing that had been built when it began. -/
theorem Later.counted (run : Run builds s) {order : List κ} {s₁ s₂ : SlotCalls κ α}
    (hstep : s.step (.census order) = some s₁) {more : List (κ × Outcome α)}
    (hlater : Later (LeftTo s.censuses.length) s₁ more s₂) :
    ∃ c ∈ s₂.censuses, c.id = s.censuses.length ∧
      ∀ k a, (k, a) ∈ succeeded builds → k ∈ c.counted ∨ k ∈ c.ahead := by
  have run₁ : Run builds s₁ := by
    have run₁ := run.step _ hstep
    rwa [show s.build? (.census order) = none from rfl, Option.toList_none, List.append_nil] at run₁
  induction hlater with
  | refl =>
    rw [SlotCalls.step] at hstep
    split at hstep
    · rename_i horder
      cases hstep
      refine ⟨_, List.mem_append_right _ List.mem_cons_self, rfl, fun k a hk => .inr ?_⟩
      have hcontent := (run.kept.accounts.succeeded k a).1 hk
      have hhas : s.table.Has k := by
        by_contra hnot
        rw [SlotTable.slot, Option.not_isSome_iff_eq_none.1 hnot] at hcontent
        cases hcontent
      exact (List.isPerm_iff.1 horder).mem_iff.2 (SlotTable.has_iff.1 hhas)
    · cases hstep
  | @step more s' s'' label hlater hleft hstep' ih =>
    obtain ⟨c, hc, hid, hcounted⟩ := ih
    have h := (hlater.run run₁).kept
    have hbuilt {k : κ} {a : α} (hk : (k, a) ∈ succeeded builds) :
        (s'.table.slot k).content = some a := by
      rw [← h.accounts.succeeded, succeeded_append]
      exact List.mem_append_left _ hk
    have hdoes := does_of_step hstep'
    generalize s'.build? label = build at hdoes
    cases hdoes with
    | arrive | turn => exact ⟨c, hc, hid, hcounted⟩
    | census => exact ⟨c, List.mem_append_left _ hc, hid, hcounted⟩
    | @visit c₀ c' key table hc₀ hv =>
      by_cases hne : c.id = c₀.id
      case neg =>
        exact ⟨c, Kept.setCensus_mem_of_ne hc (hv.id_eq ▸ hne) table, hid, hcounted⟩
      obtain rfl := h.census_eq_of_id hc hc₀ hne
      refine ⟨c', Kept.setCensus_mem hc hv.id_eq table, hv.id_eq.trans hid, fun k a hk => ?_⟩
      refine hv.covers (hbuilt hk) (fun hholding => ?_) (hcounted k a hk)
      cases hs : (s'.table.slot k).holder with
      | none => rfl
      | some holder =>
        -- it could only be this census that holds the lock
        obtain rfl := hleft k a holder (hbuilt hk) hs
        obtain ⟨c₁, hc₁, hid₁, hheld, -⟩ := h.holds k _ hs
        obtain rfl := h.census_eq_of_id hc₁ hc (hid₁.trans hid.symm)
        rw [hheld] at hholding
        cases hholding

/-! ## What callers share -/

/-- What callers share, after these builds. -/
structure Shared (builds : List (κ × Outcome α)) (s : SlotCalls κ α) : Prop where
  /-- Under each key one build succeeds at most. -/
  once : ((succeeded builds).map (·.1)).Nodup
  /-- Whoever is given a thing is given what has been built under its key. -/
  same : ∀ c ∈ s.calls, ∀ a, c.phase = .returned (.ok a) → (c.key, a) ∈ succeeded builds
  /-- Whoever looks into a slot that holds a thing is given it. -/
  given : ∀ c ∈ s.calls, ∀ a, c.phase = .looking → (s.table.slot c.key).content = some a →
    ∃ s', s.step (.look c.id) = some s' ∧ { c with phase := .returned (.ok a) } ∈ s'.calls
  /-- Whoever looks into an empty slot builds. -/
  again : ∀ c ∈ s.calls, c.phase = .looking → (s.table.slot c.key).content = none →
    ∃ s', s.step (.look c.id) = some s' ∧ { c with phase := .building } ∈ s'.calls
  /-- A build that fails leaves its slot empty and free, and all others as they are. -/
  failed : ∀ id f s', s.step (.finish id (.error f)) = some s' →
    ∃ c ∈ s.calls, c.id = id ∧ (s.table.slot c.key).holder = some (.caller id) ∧
      s'.table.slot c.key = {} ∧ ∀ k ≠ c.key, s'.table.slot k = s.table.slot k
  /-- A caller has to wait only while another, or a census, holds the lock of the same key. -/
  waits : ∀ c ∈ s.calls, c.phase = .found → s.step (.lock c.id) = none → ∃ h, s.Holds c.key h
  /-- What has been built stays. -/
  stays : ∀ label s', s.step label = some s' →
    ∀ k a, (s.table.slot k).content = some a → (s'.table.slot k).content = some a
  /-- A census never waits. -/
  goes : ∀ c ∈ s.censuses, c.ahead ≠ [] →
    (s.step (.peek c.id)).isSome = true ∨ (s.step (.tally c.id)).isSome = true
  /-- Where nobody holds a lock, all that has been built is to be seen. -/
  count : (∀ k, (s.table.slot k).holder = none) → s.table.count = (succeeded builds).length
  /-- What a census counts has been built, each thing once. -/
  built : ∀ c ∈ s.censuses, c.counted.length ≤ (succeeded builds).length
  /-- A census that begins now counts all that has been built so far, provided that nobody else
  holds the lock of any of it meanwhile. -/
  counted : ∀ order s₁ more s₂, s.step (.census order) = some s₁ →
    Later (LeftTo s.censuses.length) s₁ more s₂ →
    ∀ c ∈ s₂.censuses, c.id = s.censuses.length → c.ahead = [] →
      (succeeded builds).length ≤ c.counted.length ∧
      c.counted.length ≤ (succeeded (builds ++ more)).length

/-- A census counts at most what has been built. -/
theorem Kept.length_counted_le (h : Kept builds s) {c : Census κ} (hc : c ∈ s.censuses) :
    c.counted.length ≤ (succeeded builds).length := by
  have hfit := h.censuses c hc
  have hsub : c.counted ⊆ (succeeded builds).map (·.1) := fun k hk => by
    obtain ⟨a, ha⟩ := hfit.counted k hk
    exact List.mem_map.2 ⟨(k, a), (h.accounts.succeeded k a).2 ha, rfl⟩
  have hnodup : c.counted.Nodup := (List.nodup_append.1 hfit.once).1
  simpa using (List.Nodup.subperm hnodup hsub).length_le

/-- **Whatever callers do at the same time, they share what is built once.** -/
theorem sharing_of_run (run : Run builds s) : Shared builds s := by
  have h := run.kept
  constructor
  case once => exact h.accounts.once
  case same =>
    exact fun c hc a hp => (h.accounts.succeeded c.key a).2 ((h.calls c hc).returned a hp)
  case given =>
    intro c hc a hp hs
    refine ⟨_, ?_, Kept.setPhase_mem hc (s.table.setHolder c.key none) _⟩
    simp [step, h.find? hc, hp, hs]
  case again =>
    intro c hc hp hs
    refine ⟨_, ?_, Kept.setPhase_mem hc s.table _⟩
    simp [step, h.find? hc, hp, hs]
  case failed =>
    intro id f s' hstep
    obtain ⟨c, hc, hfinish⟩ := Option.bind_eq_some_iff.1 hstep
    have hmem := List.mem_of_find?_eq_some hc
    obtain rfl : c.id = id := by simpa using List.find?_some hc
    split at hfinish
    · rename_i hp
      cases hfinish
      have hfit := h.calls c hmem
      have hhas := hfit.found (by rw [hp]; rintro ⟨⟩)
      exact ⟨c, hmem, rfl, hfit.holds (by rw [hp]; trivial), SlotTable.slot_set_self hhas _,
        fun k hk => (SlotTable.slot_set hhas _ k).trans (if_neg hk)⟩
    · cases hfinish
  case waits =>
    intro c hc hp hblocked
    cases hs : (s.table.slot c.key).holder with
    | none => simp [step, h.find? hc, hp, hs] at hblocked
    | some holder => exact ⟨holder, h.holds c.key holder hs⟩
  case stays => exact fun label s' hstep k a hk => h.content_of_step hstep hk
  case goes =>
    intro c hc hahead
    obtain ⟨key, ahead, hcons⟩ := List.exists_cons_of_ne_nil hahead
    cases hholding : c.holding with
    | true =>
      right
      simp [step, h.findCensus? hc, hcons, hholding]
    | false =>
      left
      cases hs : (s.table.slot key).holder <;>
        simp [step, h.findCensus? hc, hcons, hholding, hs]
  case count =>
    exact fun hfree =>
      (SlotTable.count_of_free h.accounts.single hfree).trans h.accounts.length_built
  case built => exact fun c hc => h.length_counted_le hc
  case counted =>
    intro order s₁ more s₂ hstep hlater c hc hid hahead
    have run₂ : Run (builds ++ more) s₂ := by
      have run₁ := run.step _ hstep
      rw [show s.build? (.census order) = none from rfl, Option.toList_none,
        List.append_nil] at run₁
      exact hlater.run run₁
    refine ⟨?_, run₂.kept.length_counted_le hc⟩
    obtain ⟨c', hc', hid', hcounted⟩ := hlater.counted run hstep
    obtain rfl := run₂.kept.census_eq_of_id hc' hc (hid'.trans hid.symm)
    have hsub : (succeeded builds).map (·.1) ⊆ c'.counted := by
      intro k hk
      obtain ⟨⟨k, a⟩, hmem, rfl⟩ := List.mem_map.1 hk
      refine (hcounted k a hmem).resolve_right fun hin => ?_
      rw [hahead] at hin
      cases hin
    simpa using (List.Nodup.subperm h.accounts.once hsub).length_le

/-- Two callers ask for one key and a third one for another.  The first build fails, and the second
caller builds again. -/
theorem sharing_of_run_retry :
    ∃ (builds : List (Nat × Outcome Nat)) (s : SlotCalls Nat Nat), Run builds s ∧
      succeeded builds = [(2, 20), (1, 10)] ∧ s.table.count = 2 ∧ Shared builds s := by
  have run : @Run Nat Nat _ _ _ :=
    .step (.finish 1 (.ok 10)) (.step (.look 1) (.step (.lock 1)
      (.step (.finish 0 (.error (.illegalState "no"))) (.step (.finish 2 (.ok 20))
        (.step (.look 2) (.step (.lock 2) (.step (.find 2) (.step (.arrive 2)
          (.step (.look 0) (.step (.lock 0) (.step (.find 1) (.step (.find 0) (.step (.arrive 1)
            (.step (.arrive 1) .start rfl) rfl) rfl) rfl) rfl) rfl) rfl) rfl) rfl) rfl) rfl) rfl)
      rfl) rfl) rfl
  exact ⟨_, _, run, rfl, rfl, sharing_of_run run⟩

/-- Something has been built, and nobody builds.  A census that begins now counts nothing, because a
second caller holds the lock of the slot to look into it. -/
theorem census_misses_look :
    ∃ (builds : List (Nat × Outcome Nat)) (s s₁ s₂ : SlotCalls Nat Nat), Run builds s ∧
      s.step (.census [1]) = some s₁ ∧
      Later (fun s => ∀ c ∈ s.calls, c.phase ≠ .building) s₁ [] s₂ ∧
      ∃ c ∈ s₂.censuses, c.id = 0 ∧ c.ahead = [] ∧ c.counted.length = 0 ∧
        (succeeded builds).length = 1 := by
  have run : @Run Nat Nat _ _ _ :=
    .step (.lock 1) (.step (.find 1) (.step (.arrive 1) (.step (.finish 0 (.ok 10))
      (.step (.look 0) (.step (.lock 0) (.step (.find 0) (.step (.arrive 1) .start
        rfl) rfl) rfl) rfl) rfl) rfl) rfl) rfl
  refine ⟨_, _, _, _, run, rfl, .step (.peek 0) .refl ?_ rfl, _, List.mem_cons_self, rfl, rfl, rfl,
    rfl⟩
  rintro c (_ | ⟨_, _ | ⟨_, ⟨⟩⟩⟩)
  · exact nofun
  · exact nofun

end SlotCalls

end ScriptHost
