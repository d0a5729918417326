import ScriptHost.Deadline

/-!
# Clocks go on

Two things happen to a clock: time passes, and tokens are cancelled.  Neither is ever taken back, so
whatever has been cancelled at some time is cancelled from then on.

* `Clock.Passes` — time passes, and nothing else happens.
* `Clock.Precedes` — time passes, and more tokens may be cancelled.
-/

set_option autoImplicit false

namespace ScriptHost.Clock

/-- Time passes. -/
structure Passes (c c' : Clock) : Prop where
  cancellations : c'.cancellations = c.cancellations
  later : c.now ≤ c'.now

namespace Passes

theorem refl (c : Clock) : Passes c c := ⟨rfl, Nat.le_refl _⟩

theorem trans {c c' c'' : Clock} (h : Passes c c') (h' : Passes c' c'') : Passes c c'' :=
  ⟨h'.cancellations.trans h.cancellations, Nat.le_trans h.later h'.later⟩

end Passes

theorem passes_pass (c : Clock) (ms : Nat) : c.Passes (c.pass ms) := ⟨rfl, Nat.le_add_right ..⟩

theorem passes_advanceTo (c : Clock) (instant : Nat) : c.Passes (c.advanceTo instant) :=
  ⟨rfl, Nat.le_max_left ..⟩

/-- The second clock is the first one, or what has become of it. -/
structure Precedes (c c' : Clock) : Prop where
  cancellations : c.cancellations ⊆ c'.cancellations
  later : c.now ≤ c'.now

namespace Precedes

theorem refl (c : Clock) : Precedes c c := ⟨List.Subset.refl _, Nat.le_refl _⟩

theorem trans {c c' c'' : Clock} (h : Precedes c c') (h' : Precedes c' c'') : Precedes c c'' :=
  ⟨List.Subset.trans h.cancellations h'.cancellations, Nat.le_trans h.later h'.later⟩

/-- A token that has been cancelled stays so. -/
theorem isCancelled {c c' : Clock} (h : Precedes c c') {t : Token} (ht : c.isCancelled t = true) :
    c'.isCancelled t = true := by
  obtain ⟨⟨token, instant⟩, hmem, hpast⟩ := List.any_eq_true.1 ht
  refine List.any_eq_true.2 ⟨⟨token, instant⟩, h.cancellations hmem, ?_⟩
  simp only [Bool.and_eq_true, decide_eq_true_eq] at hpast ⊢
  exact ⟨hpast.1, Nat.le_trans hpast.2 h.later⟩

/-- A deadline that has passed stays so. -/
theorem isExpired {c c' : Clock} (h : Precedes c c') {d : Deadline} (hd : d.isExpired c = true) :
    d.isExpired c' = true := by
  rw [Deadline.isExpired, Bool.or_eq_true] at hd ⊢
  rcases hd with hcancelled | hpast
  · obtain ⟨t, ht, hcancelled⟩ := List.any_eq_true.1 hcancelled
    exact .inl (List.any_eq_true.2 ⟨t, ht, h.isCancelled hcancelled⟩)
  · refine .inr ?_
    split at hpast
    · rw [decide_eq_true_eq] at hpast ⊢
      exact Nat.le_trans hpast h.later
    · cases hpast

end Precedes

theorem Passes.precedes {c c' : Clock} (h : c.Passes c') : c.Precedes c' :=
  ⟨h.cancellations ▸ List.Subset.refl _, h.later⟩

theorem precedes_cancel (c : Clock) (t : Token) : c.Precedes (c.cancel t) :=
  ⟨List.subset_cons_self .., Nat.le_refl _⟩

end ScriptHost.Clock
