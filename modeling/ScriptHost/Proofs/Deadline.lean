import ScriptHost.Deadline
import Mathlib.Data.ENat.Lattice
import Mathlib.Data.List.Nodup

/-!
# The tighter of two deadlines

Every call that waits takes the smaller of two limits, so what a deadline shows must never be looser
than what it has been made of.  All that it shows is a span of time or a passing, and both are known
from two numbers: the time that is left and, if there are tokens to look at, the slice after which
the next look is due.

* `Deadline.Made` — the deadlines that can be made.  None of them carries a token twice, which is
  why the order of their tokens is all that the order of tightening can change (`Deadline.Alike`).
* `Deadline.span` — a span of time that may be without end, as a number.  What is left of the
  tighter deadline is the lesser span (`Deadline.span_remaining_min`), and so is its slice
  (`Deadline.span_waitSlice_min`).
* `Deadline.tightest_of_made` — all of this for any deadlines at any time.
-/

set_option autoImplicit false

namespace ScriptHost.Deadline

variable {a b d e : Deadline} {t t' : Token} {c : Clock}

/-! ## Tokens -/

theorem mem_withCancel : t ∈ (d.withCancel t').tokens ↔ t ∈ d.tokens ∨ t = t' := by
  rw [withCancel]
  split
  · rename_i h
    have hmem : t' ∈ d.tokens := List.contains_iff_mem.1 h
    exact ⟨.inl, fun h => h.elim id fun h => h ▸ hmem⟩
  · rw [List.mem_append, List.mem_singleton]

theorem mem_foldl_withCancel (tokens : List Token) (d : Deadline) :
    t ∈ (tokens.foldl withCancel d).tokens ↔ t ∈ d.tokens ∨ t ∈ tokens := by
  induction tokens generalizing d with
  | nil => simp
  | cons t' tokens ih => rw [List.foldl_cons, ih, mem_withCancel, List.mem_cons, or_assoc]

/-- The tighter of two deadlines carries the tokens of both. -/
theorem mem_min : t ∈ (d.min e).tokens ↔ t ∈ d.tokens ∨ t ∈ e.tokens := mem_foldl_withCancel ..

@[simp] theorem at?_withCancel (d : Deadline) (t : Token) : (d.withCancel t).at? = d.at? := by
  rw [withCancel]
  split <;> rfl

theorem nodup_withCancel (h : d.tokens.Nodup) (t : Token) : (d.withCancel t).tokens.Nodup := by
  rw [withCancel]
  split
  · exact h
  · rename_i hnew
    rw [List.contains_iff_mem] at hnew
    rw [List.nodup_append]
    refine ⟨h, List.nodup_singleton t, fun t' ht' t'' ht'' heq => hnew ?_⟩
    rwa [← List.mem_singleton.1 ht'', ← heq]

/-- Tokens that are carried already change nothing. -/
theorem foldl_withCancel_of_subset {tokens : List Token} (h : tokens ⊆ d.tokens) :
    tokens.foldl withCancel d = d := by
  induction tokens with
  | nil => rfl
  | cons t tokens ih =>
    obtain ⟨ht, hrest⟩ := List.cons_subset.1 h
    rw [List.foldl_cons, withCancel, if_pos (List.contains_iff_mem.2 ht), ih hrest]

theorem at?_foldl_withCancel (tokens : List Token) (d : Deadline) :
    (tokens.foldl withCancel d).at? = d.at? := by
  induction tokens generalizing d with
  | nil => rfl
  | cons t tokens ih => rw [List.foldl_cons, ih, at?_withCancel]

theorem nodup_foldl_withCancel (h : d.tokens.Nodup) (tokens : List Token) :
    (tokens.foldl withCancel d).tokens.Nodup := by
  induction tokens generalizing d with
  | nil => exact h
  | cons t tokens ih => exact ih (nodup_withCancel h t)

@[simp] theorem at?_min (a b : Deadline) : (a.min b).at? = earlier a.at? b.at? :=
  at?_foldl_withCancel ..

theorem isCancelled_iff : d.isCancelled c = true ↔ ∃ t ∈ d.tokens, c.isCancelled t = true := by
  rw [isCancelled, List.any_eq_true]

theorem isCancelled_min (a b : Deadline) (c : Clock) :
    (a.min b).isCancelled c = (a.isCancelled c || b.isCancelled c) := by
  rw [Bool.eq_iff_iff, Bool.or_eq_true]
  simp only [isCancelled_iff, mem_min, or_and_right, exists_or]

/-! ## Deadlines that are made -/

/-- The deadlines that can be made: by the clock at any time, with a token added to one, and out of
two. -/
inductive Made : Deadline → Prop
  | never : Made never
  | atInstant (instant : Nat) : Made (atInstant instant)
  | immediate (c : Clock) : Made (immediate c)
  | after (c : Clock) (ms : Nat) : Made (after c ms)
  | ofTimeout (c : Clock) (ms : Int) : Made (ofTimeout c ms)
  | withCancel {d : Deadline} : Made d → ∀ t, Made (d.withCancel t)
  | min {a b : Deadline} : Made a → Made b → Made (a.min b)

/-- No token is carried twice. -/
theorem Made.nodup (h : Made d) : d.tokens.Nodup := by
  have after (c : Clock) (ms : Nat) : (Deadline.after c ms).tokens.Nodup := by
    rw [Deadline.after]
    split <;> exact List.nodup_nil
  induction h with
  | never | atInstant | immediate => exact List.nodup_nil
  | after c ms => exact after c ms
  | ofTimeout c ms =>
    rw [Deadline.ofTimeout]
    split
    · exact List.nodup_nil
    · exact after c _
  | withCancel _ t ih => exact nodup_withCancel ih t
  | min _ _ iha _ => exact nodup_foldl_withCancel (by exact iha) _

/-- The deadlines are the same but for the order of their tokens. -/
structure Alike (a b : Deadline) : Prop where
  at? : a.at? = b.at?
  tokens : a.tokens.Perm b.tokens

theorem Made.alike (ha : Made a) (hb : Made b) (hat : a.at? = b.at?)
    (htokens : ∀ t, t ∈ a.tokens ↔ t ∈ b.tokens) : a.Alike b :=
  ⟨hat, (List.perm_ext_iff_of_nodup ha.nodup hb.nodup).2 htokens⟩

/-! ## Spans -/

/-- A span of milliseconds; if there is none, it is without end. -/
def span : Option Nat → ℕ∞
  | some ms => ms
  | none => ⊤

@[simp] theorem span_eq_top_iff {ms : Option Nat} : span ms = ⊤ ↔ ms = none := by
  cases ms <;> simp [span]

theorem coe_min (m n : Nat) : (Min.min m n : ℕ) = Min.min (m : ℕ∞) n := Nat.mono_cast.map_min

theorem span_injective : Function.Injective span := by
  intro m n h
  cases m <;> cases n <;> simp_all [span]

/-- The earlier of two instants has less before it. -/
theorem span_earlier (m n : Option Nat) : span (earlier m n) = Min.min (span m) (span n) := by
  cases m <;> cases n <;> simp [earlier, span, coe_min]

theorem earlier_comm (m n : Option Nat) : earlier m n = earlier n m :=
  span_injective (by simp only [span_earlier, min_comm])

theorem earlier_assoc (l m n : Option Nat) : earlier (earlier l m) n = earlier l (earlier m n) :=
  span_injective (by simp only [span_earlier, min_assoc])

theorem earlier_self (m : Option Nat) : earlier m m = m :=
  span_injective (by rw [span_earlier, min_self])

/-- What is left until an instant, or nothing if a token is cancelled. -/
theorem span_remaining (d : Deadline) (c : Clock) :
    span (d.remaining c) = if d.isCancelled c then 0 else span d.at? - c.now := by
  rw [remaining]
  split
  · rfl
  · cases d.at? <;> simp [span]

/-- How long a wait may go on before the tokens are due: without end if there are none. -/
def patience (d : Deadline) : ℕ∞ := if d.tokens = [] then ⊤ else pollSlice

theorem patience_min (a b : Deadline) :
    (a.min b).patience = Min.min a.patience b.patience := by
  have hempty : (a.min b).tokens = [] ↔ a.tokens = [] ∧ b.tokens = [] := by
    simp only [List.eq_nil_iff_forall_not_mem, mem_min, not_or, forall_and]
  simp only [patience, hempty]
  by_cases ha : a.tokens = [] <;> by_cases hb : b.tokens = [] <;> simp [ha, hb]

/-- A slice is what is left, unless the tokens are due before. -/
theorem span_waitSlice (d : Deadline) (c : Clock) :
    span (d.waitSlice c) = Min.min (span (d.remaining c)) d.patience := by
  rw [waitSlice, patience]
  by_cases h : d.tokens = []
  · simp [h]
  · simp only [List.isEmpty_iff, h, if_false]
    cases d.remaining c with
    | none => simp [span]
    | some ms => exact coe_min ms pollSlice

/-- **What is left of the tighter deadline** is what is left of that which has less. -/
theorem span_remaining_min (a b : Deadline) (c : Clock) :
    span ((a.min b).remaining c) = Min.min (span (a.remaining c)) (span (b.remaining c)) := by
  have hsub : span (earlier a.at? b.at?) - c.now =
      Min.min (span a.at? - c.now) (span b.at? - c.now) := by
    rw [span_earlier]
    exact Monotone.map_min fun m n h => tsub_le_tsub_right h _
  simp only [span_remaining, isCancelled_min, at?_min, hsub]
  by_cases ha : a.isCancelled c <;> by_cases hb : b.isCancelled c <;> simp [ha, hb]

/-- **The slice of the tighter deadline** is the shorter one. -/
theorem span_waitSlice_min (a b : Deadline) (c : Clock) :
    span ((a.min b).waitSlice c) = Min.min (span (a.waitSlice c)) (span (b.waitSlice c)) := by
  simp only [span_waitSlice, span_remaining_min, patience_min]
  exact min_min_min_comm ..

/-- A deadline has passed if and only if nothing is left of it. -/
theorem isExpired_iff_remaining : d.isExpired c = true ↔ span (d.remaining c) = 0 := by
  rw [isExpired, span_remaining]
  cases d.isCancelled c <;> cases d.at? <;> simp [span, tsub_eq_zero_iff_le]

/-- The tighter deadline has passed once one of the two has. -/
theorem isExpired_min (a b : Deadline) (c : Clock) :
    (a.min b).isExpired c = true ↔ a.isExpired c = true ∨ b.isExpired c = true := by
  simp only [isExpired_iff_remaining, span_remaining_min, ← bot_eq_zero, min_eq_bot]

/-! ## What holds of them -/

/-- What the tighter of two deadlines shows at a time. -/
structure Tightens (m a b : Deadline) (c : Clock) : Prop where
  expired : m.isExpired c = true ↔ a.isExpired c = true ∨ b.isExpired c = true
  remaining : span (m.remaining c) = Min.min (span (a.remaining c)) (span (b.remaining c))
  slice : span (m.waitSlice c) = Min.min (span (a.waitSlice c)) (span (b.waitSlice c))

theorem tightens_min (a b : Deadline) (c : Clock) : (a.min b).Tightens a b c :=
  ⟨isExpired_min a b c, span_remaining_min a b c, span_waitSlice_min a b c⟩

/-- What a deadline that has been made is like at a time. -/
structure Sound (d : Deadline) (c : Clock) : Prop where
  distinct : d.tokens.Nodup
  /-- Only what nothing ever ends is waited for without end. -/
  endless : d.waitSlice c = none ↔ d.at? = none ∧ d.tokens = []
  /-- Tokens are looked at again soon. -/
  polls : d.tokens ≠ [] → ∃ ms, d.waitSlice c = some ms ∧ ms ≤ pollSlice

theorem Made.sound (h : Made d) (c : Clock) : d.Sound c where
  distinct := h.nodup
  endless := by
    rw [← span_eq_top_iff, span_waitSlice, min_eq_top, span_eq_top_iff, remaining, patience]
    by_cases hnone : d.tokens = [] <;> simp [hnone, isCancelled]
  polls hsome := by
    rw [waitSlice, if_neg (by simpa using hsome)]
    cases d.remaining c with
    | none => exact ⟨_, rfl, Nat.le_refl _⟩
    | some ms => exact ⟨_, rfl, Nat.min_le_right ..⟩

theorem Made.alike_comm (ha : Made a) (hb : Made b) : (a.min b).Alike (b.min a) :=
  (ha.min hb).alike (hb.min ha) (by simp only [at?_min, earlier_comm])
    fun t => by simp only [mem_min, or_comm]

theorem Made.alike_assoc (ha : Made a) (hb : Made b) (hd : Made d) :
    ((a.min b).min d).Alike (a.min (b.min d)) :=
  ((ha.min hb).min hd).alike (ha.min (hb.min hd)) (by simp only [at?_min, earlier_assoc])
    fun t => by simp only [mem_min, or_assoc]

theorem min_self_eq (a : Deadline) : a.min a = a := by
  rw [Deadline.min, earlier_self]
  exact foldl_withCancel_of_subset (List.Subset.refl _)

/-- **Tightening never loosens.**  Whatever deadlines have been made, at any time and whichever
tokens are cancelled: the tighter of two has passed if and only if one of them has, and what is left
of it and its slice are the lesser ones.  The order in which deadlines are tightened changes at most
the order of their tokens, and a deadline is not changed by itself.  None carries a token twice,
none waits without end unless it has neither an instant nor a token, and one with tokens looks at
them again soon. -/
theorem tightest_of_made (ha : Made a) (hb : Made b) (hd : Made d) (c : Clock) :
    (a.min b).Tightens a b c ∧
      (a.min b).Alike (b.min a) ∧ ((a.min b).min d).Alike (a.min (b.min d)) ∧ (a.min a).Alike a ∧
      ∀ e, Made e → e.Sound c := by
  refine ⟨tightens_min a b c, ha.alike_comm hb, ha.alike_assoc hb hd, ?_, fun e he => he.sound c⟩
  rw [min_self_eq]
  exact ⟨rfl, .refl _⟩

/-- Half of the time of a call is left when the token of its request is cancelled. -/
theorem tightest_of_made_cancelled :
    let c : Clock := { now := 100, cancellations := [(⟨1⟩, 90), (⟨2⟩, 120)] }
    let request := never.withCancel ⟨1⟩
    let call := (ofTimeout { now := 50 } 100).withCancel ⟨2⟩
    Made request ∧ Made call ∧ request.min call ≠ call.min request ∧
      (request.min call).Alike (call.min request) ∧ (call.min request).isExpired c = true ∧
      span (call.remaining c) = 50 ∧ span ((call.min request).remaining c) = 0 ∧
      ∃ ms, call.waitSlice c = some ms ∧ ms ≤ pollSlice := by
  intro c request call
  have hrequest : Made request := Made.never.withCancel _
  have hcall : Made call := (Made.ofTimeout _ 100).withCancel _
  obtain ⟨htightens, halike, -, -, hsound⟩ := tightest_of_made hcall hrequest hcall c
  have hexpired : request.isExpired c = true := by decide
  have hleft : span (call.remaining c) = 50 := rfl
  refine ⟨hrequest, hcall, by decide, ⟨halike.at?.symm, halike.tokens.symm⟩,
    htightens.expired.2 (.inr hexpired), hleft, ?_, (hsound call hcall).polls (by decide)⟩
  rw [htightens.remaining, isExpired_iff_remaining.1 hexpired]
  exact min_eq_bot.2 (.inr rfl)

end ScriptHost.Deadline
