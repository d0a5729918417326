import ScriptHost.Capability.Slots
import ScriptHost.Proofs.Keyed

/-!
# What a step does to slots

The lock of a slot goes from one holder to the next, and only a builder that holds it puts something
into an empty slot, which stays there for ever (`Slot.Course`).  Whatever a caller or a census does,
it takes one slot along such a course and leaves all others as they are (`SlotTable.Moves`), and how
far it has come fits the slot that it is about (`SlotCall.Fits`, `Census.Fits`).

* `Turn`, `Visit` — what a caller and a census do when they go on.
* `does_of_step` — every step is one of these, or somebody arrives.
-/

set_option autoImplicit false

namespace ScriptHost

variable {κ α : Type} [DecidableEq κ]

/-! ## Tables -/

namespace SlotTable

/-- Each key has one slot. -/
def Single (t : SlotTable κ α) : Prop := Keyed.Distinct t.slots

/-- A key that has a slot. -/
def Has (t : SlotTable κ α) (key : κ) : Prop := (t.slots.lookup key).isSome = true

theorem has_iff {t : SlotTable κ α} {key : κ} : t.Has key ↔ key ∈ t.slots.map (·.1) := by
  rw [Has, ← not_iff_not, Option.not_isSome_iff_eq_none, Keyed.lookup_eq_none]

theorem has_find (t : SlotTable κ α) (key : κ) : (t.find key).Has key := by
  rw [Has, find]
  split
  · assumption
  · rename_i hnone
    rw [List.lookup_append, Option.not_isSome_iff_eq_none.1 hnone, Option.none_or,
      List.lookup_cons_self]
    rfl

theorem Has.find {t : SlotTable κ α} {k : κ} (h : t.Has k) (key : κ) : (t.find key).Has k := by
  rw [Has, SlotTable.find]
  split
  · exact h
  · rw [List.lookup_append, Option.isSome_or, h, Bool.true_or]

/-- A new slot is empty, and nobody holds its lock. -/
theorem slot_find (t : SlotTable κ α) (key k : κ) : (t.find key).slot k = t.slot k := by
  rw [find]
  split
  · rfl
  · rw [slot, slot, List.lookup_append]
    cases t.slots.lookup k with
    | some s => rfl
    | none =>
      rw [Option.none_or, List.lookup_cons]
      split <;> rfl

theorem Single.find {t : SlotTable κ α} (h : t.Single) (key : κ) : (t.find key).Single := by
  rw [SlotTable.find]
  split
  · exact h
  · rename_i hnone
    have hnot := Keyed.lookup_eq_none.1 (Option.not_isSome_iff_eq_none.1 hnone)
    rw [Single, Keyed.Distinct, List.map_append, List.nodup_append_comm]
    exact List.nodup_cons.2 ⟨hnot, h⟩

theorem lookup_set (t : SlotTable κ α) (key : κ) (s : Slot α) (k : κ) :
    (t.set key s).slots.lookup k =
      (t.slots.lookup k).map fun old => if k = key then s else old := by
  rw [set]
  induction t.slots with
  | nil => rfl
  | cons p slots ih =>
    rw [List.map_cons, List.lookup_cons, List.lookup_cons]
    by_cases hk : k = p.1
    · simp [hk]
    · simp [beq_eq_false_iff_ne.2 hk, ih]

theorem Has.set {t : SlotTable κ α} {k : κ} (h : t.Has k) (key : κ) (s : Slot α) :
    (t.set key s).Has k := by
  rw [Has, lookup_set, Option.isSome_map]
  exact h

theorem slot_set {t : SlotTable κ α} {key : κ} (h : t.Has key) (s : Slot α) (k : κ) :
    (t.set key s).slot k = if k = key then s else t.slot k := by
  rw [slot, lookup_set, slot]
  by_cases hk : k = key
  · obtain ⟨old, hold⟩ := Option.isSome_iff_exists.1 h
    rw [hk, hold, if_pos rfl]
    exact if_pos rfl
  · cases t.slots.lookup k <;> simp [hk]

theorem slot_set_self {t : SlotTable κ α} {key : κ} (h : t.Has key) (s : Slot α) :
    (t.set key s).slot key = s :=
  (slot_set h s key).trans (if_pos rfl)

theorem slot_setHolder {t : SlotTable κ α} {key : κ} (h : t.Has key) (holder : Option SlotHolder) :
    (t.setHolder key holder).slot key = { t.slot key with holder } :=
  slot_set_self h _

theorem content_setHolder {t : SlotTable κ α} {key : κ} (h : t.Has key)
    (holder : Option SlotHolder) :
    ((t.setHolder key holder).slot key).content = (t.slot key).content := by
  rw [slot_setHolder h]

theorem set_set (t : SlotTable κ α) (key : κ) (s s' : Slot α) :
    (t.set key s).set key s' = t.set key s' := by
  rw [set, set, set, List.map_map, SlotTable.mk.injEq]
  refine List.map_congr_left fun p _ => ?_
  by_cases hk : p.1 = key <;> simp [hk]

theorem Single.set {t : SlotTable κ α} (h : t.Single) (key : κ) (s : Slot α) :
    (t.set key s).Single := by
  rw [Single, Keyed.Distinct, SlotTable.set, List.map_map]
  exact h

/-- Putting back what is there changes nothing. -/
theorem set_slot {t : SlotTable κ α} (h : t.Single) (key : κ) : t.set key (t.slot key) = t := by
  obtain ⟨slots⟩ := t
  rw [set, SlotTable.mk.injEq]
  refine (List.map_congr_left fun p hp => ?_).trans (List.map_id _)
  obtain ⟨k, s⟩ := p
  have hs : slots.lookup k = some s := (Keyed.lookup_eq_some h).2 hp
  by_cases hk : k = key
  · subst hk
    simp [slot, hs]
  · simp [hk]

theorem set_setHolder (t : SlotTable κ α) (key : κ) (holder : Option SlotHolder) (s : Slot α) :
    (t.setHolder key holder).set key s = t.set key s :=
  t.set_set key _ s

/-- Once a lock has been given back, everything is as it was. -/
theorem setHolder_setHolder_none {t : SlotTable κ α} (h : t.Single) {key : κ} (hhas : t.Has key)
    (hfree : (t.slot key).holder = none) (holder : Option SlotHolder) :
    (t.setHolder key holder).setHolder key none = t := by
  have hback : { t.slot key with holder := none } = t.slot key := by rw [← hfree]
  rw [setHolder, slot_setHolder hhas, set_setHolder]
  exact hback ▸ set_slot h key

/-- What has been built, with its keys. -/
def built (t : SlotTable κ α) : List (κ × α) :=
  t.slots.filterMap fun p => p.2.content.map (p.1, ·)

theorem mem_built {t : SlotTable κ α} (h : t.Single) {k : κ} {a : α} :
    (k, a) ∈ t.built ↔ (t.slot k).content = some a := by
  have hlookup : (∃ s : Slot α, (k, s) ∈ t.slots ∧ s.content = some a) ↔
      (t.slot k).content = some a := by
    simp only [← Keyed.lookup_eq_some h, slot]
    cases t.slots.lookup k <;> simp
  rw [← hlookup, built, List.mem_filterMap]
  constructor
  · rintro ⟨⟨k', s⟩, hmem, hs⟩
    obtain ⟨b, hb, heq⟩ := Option.map_eq_some_iff.1 hs
    cases heq
    exact ⟨s, hmem, hb⟩
  · rintro ⟨s, hmem, hs⟩
    exact ⟨_, hmem, Option.map_eq_some_iff.2 ⟨a, hs, rfl⟩⟩

omit [DecidableEq κ] in
theorem nodup_built {t : SlotTable κ α} (h : t.Single) : t.built.Nodup := by
  have hkeys : (t.built.map (·.1)).Sublist (t.slots.map (·.1)) := by
    rw [built]
    induction t.slots with
    | nil => exact .slnil
    | cons p slots ih =>
      rw [List.filterMap_cons]
      cases p.2.content with
      | none => exact ih.cons _
      | some a => exact ih.cons_cons _
  exact (h.sublist hkeys).of_map

/-- Where nobody holds a lock, everything that has been built is counted. -/
theorem count_of_free {t : SlotTable κ α} (h : t.Single) (hfree : ∀ k, (t.slot k).holder = none) :
    t.count = t.built.length := by
  have hslots : ∀ p ∈ t.slots, p.2.holder = none := by
    rintro ⟨k, s⟩ hp
    have hk := hfree k
    rw [slot, (Keyed.lookup_eq_some h).2 hp] at hk
    exact hk
  rw [built, count, List.length_filterMap_eq_countP]
  refine List.countP_congr fun ⟨k, s⟩ hp => ?_
  have hs : s.holder = none := hslots _ hp
  simp [Slot.isOpen, hs]

end SlotTable

/-! ## What one holder does -/

/-- The course of a slot in the hands of a holder. -/
inductive Slot.Course (h : SlotHolder) : Slot α → Option (Outcome α) → Slot α → Prop
  | same (s : Slot α) : Course h s none s
  | take (content : Option α) : Course h ⟨content, none⟩ none ⟨content, some h⟩
  | leave (content : Option α) : Course h ⟨content, some h⟩ none ⟨content, none⟩
  | finish (r : Outcome α) : Course h ⟨none, some h⟩ (some r) (.outcome r)

namespace Slot.Course

variable {h : SlotHolder} {s s' : Slot α} {d : Option (Outcome α)}

omit [DecidableEq κ] in
theorem of_free (hs : s.holder = none) : Course h s none { s with holder := some h } := by
  cases s
  cases hs
  exact .take _

omit [DecidableEq κ] in
theorem of_held (hs : s.holder = some h) : Course h s none { s with holder := none } := by
  cases s
  cases hs
  exact .leave _

omit [DecidableEq κ] in
theorem of_empty (hs : s.holder = some h) (hempty : s.content = none) (r : Outcome α) :
    Course h s (some r) (.outcome r) := by
  cases s
  cases hs
  cases hempty
  exact .finish r

omit [DecidableEq κ] in
theorem content (hc : Course h s d s') {a : α} (ha : s.content = some a) :
    s'.content = some a := by
  cases hc with
  | finish r => cases ha
  | _ => exact ha

omit [DecidableEq κ] in
theorem content_iff (hc : Course h s d s') (a : α) :
    s'.content = some a ↔ s.content = some a ∨ d = some (.ok a) := by
  cases hc with
  | finish r => cases r <;> simp [Slot.outcome]
  | _ => simp

omit [DecidableEq κ] in
/-- Whoever ends a build has found nothing. -/
theorem empty_of_ends (hc : Course h s d s') {r : Outcome α} (hd : d = some r) :
    s.content = none := by
  cases hc with
  | finish r => rfl
  | _ => cases hd

omit [DecidableEq κ] in
/-- A slot is left alone while somebody else holds the lock. -/
theorem eq_of_held (hc : Course h s d s') {h' : SlotHolder} (hs : s.holder = some h')
    (hne : h' ≠ h) : s' = s := by
  cases hc with
  | same => rfl
  | take => cases hs
  | leave | finish => exact absurd (Option.some.inj hs).symm hne

omit [DecidableEq κ] in
/-- The lock is taken for nobody else. -/
theorem eq_of_holds (hc : Course h s d s') {h' : SlotHolder} (hs : s'.holder = some h')
    (hne : h' ≠ h) : s' = s := by
  cases hc with
  | same => rfl
  | take => exact absurd (Option.some.inj hs).symm hne
  | leave => cases hs
  | finish r => cases r <;> cases hs

end Slot.Course

namespace SlotTable

/-- What a holder does to a table: the slot of one key takes its course, which may end a build. -/
structure Moves (t : SlotTable κ α) (h : SlotHolder) (key : κ) (d : Option (Outcome α))
    (t' : SlotTable κ α) : Prop where
  single : t.Single → t'.Single
  has : ∀ k, t.Has k → t'.Has k
  course : Slot.Course h (t.slot key) d (t'.slot key)
  other : ∀ k ≠ key, t'.slot k = t.slot k

namespace Moves

variable {h : SlotHolder} {key : κ} {d : Option (Outcome α)} {t t' : SlotTable κ α}

theorem refl (h : SlotHolder) (key : κ) (t : SlotTable κ α) : Moves t h key none t where
  single hs := hs
  has _ hk := hk
  course := .same _
  other _ _ := rfl

theorem find (h : SlotHolder) (key : κ) (t : SlotTable κ α) : Moves t h key none (t.find key) where
  single hs := hs.find key
  has _ hk := hk.find key
  course := t.slot_find key key ▸ .same _
  other k _ := t.slot_find key k

theorem set (hhas : t.Has key) {s : Slot α} (hc : Slot.Course h (t.slot key) d s) :
    Moves t h key d (t.set key s) where
  single hs := hs.set key s
  has _ hk := hk.set key s
  course := (slot_set_self hhas s).symm ▸ hc
  other k hk := (slot_set hhas s k).trans (if_neg hk)

theorem take (hhas : t.Has key) (hfree : (t.slot key).holder = none) (h : SlotHolder) :
    Moves t h key none (t.setHolder key (some h)) :=
  .set hhas (.of_free hfree)

theorem leave (hhas : t.Has key) (hheld : (t.slot key).holder = some h) :
    Moves t h key none (t.setHolder key none) :=
  .set hhas (.of_held hheld)

theorem finish (hhas : t.Has key) (hheld : (t.slot key).holder = some h)
    (hempty : (t.slot key).content = none) (r : Outcome α) :
    Moves t h key (some r) (t.set key (.outcome r)) :=
  .set hhas (.of_empty hheld hempty r)

theorem content (hm : Moves t h key d t') {k : κ} {a : α} (ha : (t.slot k).content = some a) :
    (t'.slot k).content = some a := by
  by_cases hk : k = key
  · subst hk
    exact hm.course.content ha
  · rw [hm.other k hk, ha]

theorem content_iff (hm : Moves t h key d t') (k : κ) (a : α) :
    (t'.slot k).content = some a ↔
      (t.slot k).content = some a ∨ (k = key ∧ d = some (.ok a)) := by
  by_cases hk : k = key
  · subst hk
    simpa using hm.course.content_iff a
  · simp [hm.other k hk, hk]

theorem eq_of_held (hm : Moves t h key d t') {k : κ} {h' : SlotHolder}
    (hk : (t.slot k).holder = some h') (hne : h' ≠ h) : t'.slot k = t.slot k := by
  by_cases hkey : k = key
  · subst hkey
    exact hm.course.eq_of_held hk hne
  · exact hm.other k hkey

theorem eq_of_holds (hm : Moves t h key d t') {k : κ} {h' : SlotHolder}
    (hk : (t'.slot k).holder = some h') (hne : h' ≠ h) : t'.slot k = t.slot k := by
  by_cases hkey : k = key
  · subst hkey
    exact hm.course.eq_of_holds hk hne
  · exact hm.other k hkey

end Moves

end SlotTable

/-- It holds the lock of its slot. -/
def SlotPhase.Locks : SlotPhase α → Prop
  | .looking | .building => True
  | .arrived | .found | .returned _ => False

/-- What a caller knows of the table. -/
structure SlotCall.Fits (t : SlotTable κ α) (c : SlotCall κ α) : Prop where
  found : c.phase ≠ .arrived → t.Has c.key
  holds : c.phase.Locks → (t.slot c.key).holder = some (.caller c.id)
  empty : c.phase = .building → (t.slot c.key).content = none
  returned : ∀ a, c.phase = .returned (.ok a) → (t.slot c.key).content = some a

/-- What others do makes no difference to what a caller knows. -/
theorem SlotCall.Fits.moves {t t' : SlotTable κ α} {c : SlotCall κ α} (hfit : c.Fits t)
    {h : SlotHolder} {key : κ} {d : Option (Outcome α)} (hm : t.Moves h key d t')
    (hne : .caller c.id ≠ h) : c.Fits t' where
  found hp := hm.has _ (hfit.found hp)
  holds hp := by rw [hm.eq_of_held (hfit.holds hp) hne, hfit.holds hp]
  empty hp := by rw [hm.eq_of_held (hfit.holds (by rw [hp]; trivial)) hne, hfit.empty hp]
  returned a hp := hm.content (hfit.returned a hp)

/-- What a census knows of the table. -/
structure Census.Fits (t : SlotTable κ α) (c : Census κ) : Prop where
  found : ∀ k ∈ c.ahead, t.Has k
  holds : c.holding = true → ∃ k ∈ c.ahead.head?, (t.slot k).holder = some (.census c.id)
  once : (c.counted ++ c.ahead).Nodup
  counted : ∀ k ∈ c.counted, ∃ a, (t.slot k).content = some a

/-- What others do makes no difference to what a census knows. -/
theorem Census.Fits.moves {t t' : SlotTable κ α} {c : Census κ} (hfit : c.Fits t)
    {h : SlotHolder} {key : κ} {d : Option (Outcome α)} (hm : t.Moves h key d t')
    (hne : .census c.id ≠ h) : c.Fits t' where
  found k hk := hm.has k (hfit.found k hk)
  holds hc := by
    obtain ⟨k, hk, hheld⟩ := hfit.holds hc
    exact ⟨k, hk, by rw [hm.eq_of_held hheld hne, hheld]⟩
  once := hfit.once
  counted k hk := by
    obtain ⟨a, ha⟩ := hfit.counted k hk
    exact ⟨a, hm.content ha⟩

namespace SlotCalls

/-! ### Callers -/

/-- What a caller does when it goes on. -/
inductive Turn (t : SlotTable κ α) (c : SlotCall κ α) :
    Option (Outcome α) → SlotTable κ α → SlotPhase α → Prop
  | find (hp : c.phase = .arrived) : Turn t c none (t.find c.key) .found
  | lock (hp : c.phase = .found) (hs : (t.slot c.key).holder = none) :
      Turn t c none (t.setHolder c.key (some (.caller c.id))) .looking
  | share {a : α} (hp : c.phase = .looking) (hs : (t.slot c.key).content = some a) :
      Turn t c none (t.setHolder c.key none) (.returned (.ok a))
  | begin (hp : c.phase = .looking) (hs : (t.slot c.key).content = none) : Turn t c none t .building
  | finish (hp : c.phase = .building) (r : Outcome α) :
      Turn t c (some r) (t.set c.key (.outcome r)) (.returned r)

namespace Turn

variable {t t' : SlotTable κ α} {c : SlotCall κ α} {d : Option (Outcome α)} {phase : SlotPhase α}

/-- Who goes on has not been answered. -/
theorem phase_ne (h : Turn t c d t' phase) (r : Outcome α) : c.phase ≠ .returned r := by
  cases h with
  | find hp | lock hp | share hp | begin hp | finish hp =>
    rw [hp]
    exact nofun

theorem moves (h : Turn t c d t' phase) (hfit : c.Fits t) :
    t.Moves (.caller c.id) c.key d t' := by
  cases h with
  | find => exact .find ..
  | lock hp hs => exact .take (hfit.found (by rw [hp]; exact nofun)) hs _
  | share hp hs =>
    exact .leave (hfit.found (by rw [hp]; exact nofun)) (hfit.holds (by rw [hp]; trivial))
  | begin => exact .refl ..
  | finish hp r =>
    exact .finish (hfit.found (by rw [hp]; exact nofun)) (hfit.holds (by rw [hp]; trivial))
      (hfit.empty hp) r

/-- The caller still knows what the table is like. -/
theorem fits (h : Turn t c d t' phase) (hfit : c.Fits t) :
    SlotCall.Fits t' { c with phase } := by
  have hhas (hp : c.phase ≠ .arrived) : t.Has c.key := hfit.found hp
  cases h with
  | find => exact ⟨fun _ => t.has_find c.key, nofun, nofun, nofun⟩
  | lock hp hs =>
    have hk := hhas (by rw [hp]; exact nofun)
    refine ⟨fun _ => hk.set _ _, fun _ => ?_, nofun, nofun⟩
    exact congrArg Slot.holder (SlotTable.slot_setHolder hk _)
  | share hp hs =>
    have hk := hhas (by rw [hp]; exact nofun)
    refine ⟨fun _ => hk.set _ _, nofun, nofun, fun a ha => ?_⟩
    cases ha
    exact (SlotTable.content_setHolder hk _).trans hs
  | begin hp hs =>
    exact ⟨fun _ => hhas (by rw [hp]; exact nofun), fun _ => hfit.holds (by rw [hp]; trivial),
      fun _ => hs, nofun⟩
  | finish hp r =>
    have hk := hhas (by rw [hp]; exact nofun)
    refine ⟨fun _ => hk.set _ _, nofun, nofun, fun a ha => ?_⟩
    cases ha
    exact congrArg Slot.content (SlotTable.slot_set_self hk _)

/-- A lock that the caller holds when it has gone on is that of its slot. -/
theorem locks (h : Turn t c d t' phase) (hfit : c.Fits t)
    (hheld : (t'.slot c.key).holder = some (.caller c.id)) 
    (hwas : (t.slot c.key).holder = some (.caller c.id) → c.phase.Locks) : phase.Locks := by
  cases h with
  | find hp =>
    rw [t.slot_find] at hheld
    exact absurd (hwas hheld) (by rw [hp]; exact id)
  | lock | begin => trivial
  | share hp hs =>
    rw [SlotTable.slot_setHolder (hfit.found (by rw [hp]; exact nofun))] at hheld
    cases hheld
  | finish hp r =>
    rw [SlotTable.slot_set_self (hfit.found (by rw [hp]; exact nofun))] at hheld
    cases r <;> cases hheld

end Turn

/-! ### Censuses -/

/-- What a census does when it goes on, at the slot of a key. -/
inductive Visit (t : SlotTable κ α) (c : Census κ) : κ → SlotTable κ α → Census κ → Prop
  | pass {key : κ} {ahead : List κ} {h : SlotHolder} (hahead : c.ahead = key :: ahead)
      (hc : c.holding = false) (hs : (t.slot key).holder = some h) :
      Visit t c key t { c with ahead }
  | take {key : κ} {ahead : List κ} (hahead : c.ahead = key :: ahead) (hc : c.holding = false)
      (hs : (t.slot key).holder = none) :
      Visit t c key (t.setHolder key (some (.census c.id))) { c with holding := true }
  | tally {key : κ} {ahead : List κ} (hahead : c.ahead = key :: ahead) (hc : c.holding = true) :
      Visit t c key (t.setHolder key none) { c with
        ahead
        holding := false
        counted := if (t.slot key).content.isSome then c.counted ++ [key] else c.counted }

namespace Visit

variable {t t' : SlotTable κ α} {c c' : Census κ} {key : κ}

theorem id_eq (h : Visit t c key t' c') : c'.id = c.id := by
  cases h <;> rfl

theorem head_eq (h : Visit t c key t' c') : c.ahead.head? = some key := by
  cases h with
  | pass hahead | take hahead | tally hahead => rw [hahead, List.head?_cons]

theorem moves (h : Visit t c key t' c') (hfit : c.Fits t) : t.Moves (.census c.id) key none t' := by
  have hhas : t.Has key := hfit.found key (List.mem_of_mem_head? h.head_eq)
  cases h with
  | pass => exact .refl ..
  | take _ _ hs => exact .take hhas hs _
  | tally hahead hc =>
    obtain ⟨k, hk, hheld⟩ := hfit.holds hc
    rw [hahead] at hk
    cases hk
    exact .leave hhas hheld

/-- The census still knows what the table is like. -/
theorem fits (h : Visit t c key t' c') (hfit : c.Fits t) : c'.Fits t' := by
  have hmoves := h.moves hfit
  have hhas : t.Has key := hfit.found key (List.mem_of_mem_head? h.head_eq)
  have hcounted : ∀ k ∈ c.counted, ∃ a, (t'.slot k).content = some a := fun k hk =>
    (hfit.counted k hk).imp fun a ha => hmoves.content ha
  have hfound : ∀ k ∈ c.ahead, t'.Has k := fun k hk => hmoves.has k (hfit.found k hk)
  cases h with
  | pass hahead hc hs =>
    rw [hahead] at hfound
    refine ⟨fun k hk => hfound k (List.mem_cons_of_mem _ hk), fun h => ?_, ?_, hcounted⟩
    · rw [hc] at h
      cases h
    · exact hfit.once.sublist (hahead ▸ (List.sublist_cons_self ..).append_left _)
  | take hahead hc hs =>
    refine ⟨hfound, fun _ => ⟨key, hahead ▸ rfl, ?_⟩, hfit.once, hcounted⟩
    rw [SlotTable.slot_setHolder hhas]
  | @tally ahead hahead hc =>
    have honce := hfit.once
    rw [hahead] at hfound honce
    refine ⟨fun k hk => hfound k (List.mem_cons_of_mem _ hk), nofun, ?_, fun k hk => ?_⟩
    · split
      · rwa [List.append_assoc]
      · exact honce.sublist ((List.sublist_cons_self ..).append_left _)
    · split at hk
      · rename_i hsome
        rcases List.mem_append.1 hk with hk | hk
        · exact hcounted k hk
        · obtain rfl := List.mem_singleton.1 hk
          obtain ⟨a, ha⟩ := Option.isSome_iff_exists.1 hsome
          exact ⟨a, hmoves.content ha⟩
      · exact hcounted k hk

/-- A lock that the census holds when it has gone on is that of the slot it has come to. -/
theorem holds (h : Visit t c key t' c') (hfit : c.Fits t)
    (hheld : (t'.slot key).holder = some (.census c.id))
    (hwas : (t.slot key).holder = some (.census c.id) → c.holding = true) :
    c'.holding = true ∧ c'.ahead.head? = some key := by
  have hhas : t.Has key := hfit.found key (List.mem_of_mem_head? h.head_eq)
  cases h with
  | pass hahead hc =>
    rw [hwas hheld] at hc
    cases hc
  | take hahead => exact ⟨rfl, hahead ▸ rfl⟩
  | tally =>
    rw [SlotTable.slot_setHolder hhas] at hheld
    cases hheld

/-- What has been built is not missed where the lock is free. -/
theorem covers (h : Visit t c key t' c') {k : κ} {a : α} (hk : (t.slot k).content = some a)
    (hfree : c.holding = false → (t.slot k).holder = none) (hc : k ∈ c.counted ∨ k ∈ c.ahead) :
    k ∈ c'.counted ∨ k ∈ c'.ahead := by
  cases h with
  | take => exact hc
  | pass hahead hholding hs =>
    refine hc.imp_right fun hmem => ?_
    rw [hahead] at hmem
    refine (List.mem_cons.1 hmem).resolve_left ?_
    rintro rfl
    rw [hfree hholding] at hs
    cases hs
  | tally hahead =>
    rw [hahead, List.mem_cons] at hc
    rcases hc with hmem | rfl | hmem
    · left
      show k ∈ ite ..
      split
      · exact List.mem_append_left _ hmem
      · exact hmem
    · left
      show k ∈ ite ..
      rw [hk, Option.isSome_some, if_pos rfl]
      exact List.mem_append_right _ List.mem_cons_self
    · exact .inr hmem

end Visit

/-! ### Steps -/

/-- The build that a step ends: its key and how it went. -/
def build? (s : SlotCalls κ α) : Label κ α → Option (κ × Outcome α)
  | .finish id r => (s.calls.find? (·.id = id)).map fun c => (c.key, r)
  | _ => none

/-- What a step does: somebody arrives, a caller that is there goes on, a census begins, or one that
has begun goes on. -/
inductive Does (s : SlotCalls κ α) : Option (κ × Outcome α) → SlotCalls κ α → Prop
  | arrive (key : κ) :
      Does s none { s with calls := s.calls ++ [⟨s.calls.length, key, .arrived⟩] }
  | turn {c : SlotCall κ α} {d : Option (Outcome α)} {table : SlotTable κ α}
      {phase : SlotPhase α} (hc : c ∈ s.calls) (h : Turn s.table c d table phase) :
      Does s (d.map (c.key, ·)) ({ s with table }.setPhase c.id phase)
  | census {order : List κ} (horder : order.Perm (s.table.slots.map (·.1))) :
      Does s none { s with
        censuses := s.censuses ++ [{ id := s.censuses.length, ahead := order }] }
  | visit {c c' : Census κ} {key : κ} {table : SlotTable κ α} (hc : c ∈ s.censuses)
      (h : Visit s.table c key table c') : Does s none ({ s with table }.setCensus c')

theorem does_of_step {s s' : SlotCalls κ α} {label : Label κ α} (h : s.step label = some s') :
    Does s (s.build? label) s' := by
  -- one case for each label; the phase of the caller, or where the census is, decides the rest
  cases label with
  | arrive key =>
    cases h
    exact .arrive key
  | find id =>
    obtain ⟨c, hc, hstep⟩ := Option.bind_eq_some_iff.1 h
    obtain rfl : c.id = id := by simpa using List.find?_some hc
    split at hstep
    · rename_i hp
      cases hstep
      exact .turn (List.mem_of_find?_eq_some hc) (.find hp)
    · cases hstep
  | lock id =>
    obtain ⟨c, hc, hstep⟩ := Option.bind_eq_some_iff.1 h
    obtain rfl : c.id = id := by simpa using List.find?_some hc
    split at hstep
    · rename_i hp hs
      cases hstep
      exact .turn (List.mem_of_find?_eq_some hc) (.lock hp hs)
    · cases hstep
  | look id =>
    obtain ⟨c, hc, hstep⟩ := Option.bind_eq_some_iff.1 h
    obtain rfl : c.id = id := by simpa using List.find?_some hc
    split at hstep
    · rename_i hp hs
      cases hstep
      exact .turn (List.mem_of_find?_eq_some hc) (.share hp hs)
    · rename_i hp hs
      cases hstep
      exact .turn (List.mem_of_find?_eq_some hc) (.begin hp hs)
    · cases hstep
  | finish id r =>
    obtain ⟨c, hc, hstep⟩ := Option.bind_eq_some_iff.1 h
    obtain rfl : c.id = id := by simpa using List.find?_some hc
    split at hstep
    · rename_i hp
      cases hstep
      rw [build?, hc]
      exact .turn (List.mem_of_find?_eq_some hc) (.finish hp r)
    · cases hstep
  | census order =>
    rw [step] at h
    split at h
    · rename_i horder
      cases h
      exact .census (List.isPerm_iff.1 horder)
    · cases h
  | peek id =>
    obtain ⟨c, hc, hstep⟩ := Option.bind_eq_some_iff.1 h
    obtain rfl : c.id = id := by simpa using List.find?_some hc
    split at hstep
    · rename_i hahead hholding
      split at hstep
      · rename_i hs
        cases hstep
        exact .visit (List.mem_of_find?_eq_some hc) (.pass hahead hholding hs)
      · rename_i hs
        cases hstep
        exact .visit (List.mem_of_find?_eq_some hc) (.take hahead hholding hs)
    · cases hstep
  | tally id =>
    obtain ⟨c, hc, hstep⟩ := Option.bind_eq_some_iff.1 h
    obtain rfl : c.id = id := by simpa using List.find?_some hc
    split at hstep
    · rename_i hahead hholding
      cases hstep
      exact .visit (List.mem_of_find?_eq_some hc) (.tally hahead hholding)
    · cases hstep

/-- The key under which somebody arrives. -/
def Label.arrival? : Label κ α → Option κ
  | .arrive key => some key
  | _ => none

omit [DecidableEq κ] in
theorem keys_setPhase (s : SlotCalls κ α) (id : Nat) (phase : SlotPhase α) :
    (s.setPhase id phase).calls.map (·.key) = s.calls.map (·.key) := by
  rw [setPhase, List.map_map]
  refine List.map_congr_left fun c _ => ?_
  simp only [Function.comp_apply]
  split <;> rfl

/-- Nobody changes the key. -/
theorem keys_of_step {s s' : SlotCalls κ α} {label : Label κ α} (h : s.step label = some s') :
    s'.calls.map (·.key) = s.calls.map (·.key) ++ label.arrival?.toList := by
  cases label with
  | arrive key =>
    cases h
    rw [List.map_append]
    rfl
  | find id | lock id | look id | finish id r =>
    obtain ⟨c, -, hstep⟩ := Option.bind_eq_some_iff.1 h
    show s'.calls.map (·.key) = s.calls.map (·.key) ++ []
    rw [List.append_nil]
    split at hstep <;> cases hstep <;> exact keys_setPhase ..
  | census order =>
    rw [step] at h
    split at h <;> cases h
    exact (List.append_nil _).symm
  | peek id =>
    obtain ⟨c, -, hstep⟩ := Option.bind_eq_some_iff.1 h
    show s'.calls.map (·.key) = s.calls.map (·.key) ++ []
    rw [List.append_nil]
    split at hstep
    · split at hstep <;> cases hstep <;> rfl
    · cases hstep
  | tally id =>
    obtain ⟨c, -, hstep⟩ := Option.bind_eq_some_iff.1 h
    show s'.calls.map (·.key) = s.calls.map (·.key) ++ []
    rw [List.append_nil]
    split at hstep <;> cases hstep
    rfl

/-- Who ends a build, and what it is. -/
theorem build?_of_finish {s s' : SlotCalls κ α} {id : Nat} {r : Outcome α}
    (h : s.step (.finish id r) = some s') :
    ∃ c ∈ s.calls, c.id = id ∧ s.build? (.finish id r) = some (c.key, r) := by
  obtain ⟨c, hc, -⟩ := Option.bind_eq_some_iff.1 h
  refine ⟨c, List.mem_of_find?_eq_some hc, by simpa using List.find?_some hc, ?_⟩
  rw [build?, hc]
  rfl

end SlotCalls

end ScriptHost
