import ScriptHost.Text.Blank
import Mathlib.Data.List.Basic

/-!
# Cutting texts in two

A text that is put together from two pieces and a character between them can be taken apart again,
if one knows which of the occurrences of that character it is.

* `Text.splitFirst_eq_some_iff` — cutting at the first element that satisfies a condition.
* `Text.cons_unique_of_first`, `Text.cons_unique_of_last` — the pieces are determined if the one
  before the character, or the one behind it, is free of it.
-/

set_option autoImplicit false

namespace ScriptHost.Text

variable {α : Type}

/-- Cutting at the first element that satisfies `p`. -/
theorem splitFirst_eq_some_iff {p : α → Bool} {as before behind : List α} :
    splitFirst p as = some (before, behind) ↔
      ∃ a, as = before ++ a :: behind ∧ p a = true ∧ ∀ b ∈ before, p b = false := by
  induction as generalizing before with
  | nil => simp [splitFirst]
  | cons c as ih =>
    rw [splitFirst]
    cases hc : p c with
    | true =>
      simp only [if_true, Option.some.injEq, Prod.mk.injEq]
      constructor
      · rintro ⟨rfl, rfl⟩
        exact ⟨c, rfl, hc, fun _ hb => absurd hb List.not_mem_nil⟩
      · rintro ⟨a, has, -, hbefore⟩
        cases before with
        | nil =>
          cases has
          exact ⟨rfl, rfl⟩
        | cons b before =>
          cases has
          rw [hbefore _ List.mem_cons_self] at hc
          cases hc
    | false =>
      simp only [Bool.false_eq_true, if_false, Option.map_eq_some_iff, Prod.mk.injEq, Prod.exists]
      constructor
      · rintro ⟨before', behind', hsplit, rfl, rfl⟩
        obtain ⟨a, rfl, ha, hbefore⟩ := ih.1 hsplit
        exact ⟨a, rfl, ha, List.forall_mem_cons.2 ⟨hc, hbefore⟩⟩
      · rintro ⟨a, has, ha, hbefore⟩
        cases before with
        | nil =>
          cases has
          rw [hc] at ha
          cases ha
        | cons b before =>
          cases has
          exact ⟨before, behind, ih.2 ⟨a, rfl, ha, (List.forall_mem_cons.1 hbefore).2⟩, rfl, rfl⟩

theorem splitFirst_eq_none_iff {p : α → Bool} {as : List α} :
    splitFirst p as = none ↔ ∀ a ∈ as, p a = false := by
  induction as with
  | nil => simp [splitFirst]
  | cons a as ih =>
    rw [splitFirst]
    cases ha : p a <;> simp [ha, ih]

variable [DecidableEq α] {c : α} {a b x y : List α}

theorem splitFirst_append_cons (ha : c ∉ a) (x : List α) :
    splitFirst (· = c) (a ++ c :: x) = some (a, x) :=
  splitFirst_eq_some_iff.2 ⟨c, rfl, decide_eq_true rfl, fun _ hd =>
    decide_eq_false fun heq => ha (heq ▸ hd)⟩

theorem splitFirst_of_notMem (ha : c ∉ a) : splitFirst (· = c) a = none :=
  splitFirst_eq_none_iff.2 fun _ hd => decide_eq_false fun heq => ha (heq ▸ hd)

theorem cons_unique_of_first (ha : c ∉ a) (hb : c ∉ b) (h : a ++ c :: x = b ++ c :: y) :
    a = b ∧ x = y := by
  have hsplit := congrArg (splitFirst (· = c)) h
  rw [splitFirst_append_cons ha, splitFirst_append_cons hb] at hsplit
  exact Prod.mk.inj (Option.some.inj hsplit)

theorem cons_unique_of_last (hx : c ∉ x) (hy : c ∉ y) (h : a ++ c :: x = b ++ c :: y) :
    a = b ∧ x = y := by
  have hreverse := congrArg List.reverse h
  simp only [List.reverse_append, List.reverse_cons, List.append_assoc, List.singleton_append]
    at hreverse
  obtain ⟨hxy, hab⟩ := cons_unique_of_first (List.mem_reverse.not.2 hx) (List.mem_reverse.not.2 hy)
    hreverse
  exact ⟨List.reverse_injective hab, List.reverse_injective hxy⟩

end ScriptHost.Text
