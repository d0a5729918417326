import Mathlib.Data.List.Nodup

/-!
# Lists with distinct keys

Tables are kept as lists of pairs in which each key stands once.  Looking a key up in such a list
finds the pair that is in it, and choosing among the pairs is choosing among what is found.
-/

set_option autoImplicit false

namespace ScriptHost.Keyed

variable {κ β : Type}

/-- Each key stands once. -/
def Distinct (l : List (κ × β)) : Prop := (l.map (·.1)).Nodup

theorem Distinct.filter {l : List (κ × β)} (h : Distinct l) (p : κ × β → Bool) :
    Distinct (l.filter p) :=
  h.sublist (List.filter_sublist.map _)

variable [BEq κ] [LawfulBEq κ]

theorem lookup_eq_none {l : List (κ × β)} {k : κ} : l.lookup k = none ↔ k ∉ l.map (·.1) := by
  simp only [List.lookup_eq_none_iff, bne_iff_ne, List.mem_map, not_exists, not_and]
  exact ⟨fun h p hp he => h p hp he.symm, fun h p hp he => h p hp he.symm⟩

/-- Looking up finds what is in the list. -/
theorem lookup_eq_some {l : List (κ × β)} (h : Distinct l) {k : κ} {v : β} :
    l.lookup k = some v ↔ (k, v) ∈ l := by
  induction l with
  | nil => simp
  | cons p l ih =>
    obtain ⟨k', v'⟩ := p
    rw [Distinct, List.map_cons, List.nodup_cons] at h
    rw [List.lookup_cons, List.mem_cons]
    by_cases hk : k = k'
    · subst hk
      have hnot : (k, v) ∉ l := fun hm => h.1 (List.mem_map.2 ⟨_, hm, rfl⟩)
      simp [hnot, eq_comm]
    · simp [hk, beq_eq_false_iff_ne.2 hk, ih h.2]

/-- What a choice among the pairs leaves of a key is its pair, if that is chosen. -/
theorem lookup_filter {l : List (κ × β)} (h : Distinct l) (p : κ × β → Bool) (k : κ) :
    (l.filter p).lookup k = (l.lookup k).filter fun v => p (k, v) := by
  ext v
  rw [lookup_eq_some (h.filter p), List.mem_filter, Option.filter_eq_some_iff, lookup_eq_some h]

theorem lookup_filter_eq_self {l : List (κ × β)} (h : Distinct l) {p : κ × β → Bool} {k : κ}
    (hp : ∀ v, l.lookup k = some v → p (k, v) = true) : (l.filter p).lookup k = l.lookup k := by
  rw [lookup_filter h]
  cases hv : l.lookup k with
  | none => rfl
  | some v => rw [Option.filter_some, if_pos (hp v hv)]

theorem lookup_filter_eq_none {l : List (κ × β)} (h : Distinct l) {p : κ × β → Bool} {k : κ}
    (hp : ∀ v, l.lookup k = some v → p (k, v) = false) : (l.filter p).lookup k = none := by
  rw [lookup_filter h]
  cases hv : l.lookup k with
  | none => rfl
  | some v => rw [Option.filter_some, hp v hv, if_neg Bool.false_ne_true]

end ScriptHost.Keyed
