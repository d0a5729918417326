import ScriptHost.Proofs.Bus.Conservation
import Mathlib.Data.List.Sort

/-!
# The order of events

When one thread alone uses a bus, every inbox is offered the events in the order in which their
emits have started, however deep emits are nested in the callbacks of others.  The reason is that an
emit serves all its inboxes before it calls a listener, so that only the emit that has started last
can have inboxes to serve (`Serving`).

Threads that emit at the same time may overtake each other; an example stands at the end.
-/

set_option autoImplicit false

namespace ScriptHost.Bus

variable {α ε : Type}

/-- Of the emits that a thread has under way, only the innermost may have inboxes to serve; then the
thread does nothing else, and that emit is the last one that has started. -/
def Serving (emits : Nat) (idle : Bool) : List (Frame α ε) → Prop
  | [] => True
  | f :: outer =>
    (∀ g ∈ outer, g.targets = []) ∧ (f.targets ≠ [] → idle = true ∧ f.number + 1 = emits)

theorem Serving.of_targets {emits : Nat} {idle : Bool} {stack : List (Frame α ε)}
    (h : ∀ f ∈ stack, f.targets = []) : Serving emits idle stack := by
  cases stack with
  | nil => trivial
  | cons f outer =>
    exact ⟨fun g hg => h g (List.mem_cons_of_mem f hg),
      fun hf => absurd (h f List.mem_cons_self) hf⟩

/-- A thread that does something else serves no inbox. -/
theorem Serving.targets_eq_nil {emits : Nat} {stack : List (Frame α ε)}
    (h : Serving emits false stack) : ∀ f ∈ stack, f.targets = [] := by
  cases stack with
  | nil => exact nofun
  | cons f outer =>
    intro g hg
    rcases List.mem_cons.1 hg with rfl | hg
    · by_contra hne
      exact Bool.false_ne_true (h.2 hne).1
    · exact h.1 g hg

theorem Serving.advance {emits : Nat} {idle idle' : Bool} {stack stack' : List (Frame α ε)}
    {d : Option (Deed α)} (h : Serving emits idle stack)
    (hadv : Advance emits idle stack d idle' stack') :
    Serving (emits + (d.any Deed.isStart).toNat) idle' stack' := by
  cases hadv with
  | other hi hd =>
    cases hidle : idle with
    | true =>
      rw [hi hidle]
      trivial
    | false =>
      rw [hidle] at h
      exact .of_targets h.targets_eq_nil
  | started topic event audience rest next => exact ⟨h.targets_eq_nil, fun _ => ⟨rfl, rfl⟩⟩
  | offered lost ht => exact ⟨h.1, fun _ => ⟨rfl, (h.2 (by rw [ht]; exact List.cons_ne_nil _ _)).2⟩⟩
  | declined ht => exact ⟨h.1, fun _ => ⟨rfl, (h.2 (by rw [ht]; exact List.cons_ne_nil _ _)).2⟩⟩
  | called ht | passed ht | left ht => exact ⟨h.1, fun hne => absurd ht hne⟩
  | returned ht => exact .of_targets h.1

variable {capacity n : Nat} {clock : Clock} {h h₁ h₂ : History α} {w : Threads α ε}

theorem Run.serving (run : Run (.new capacity clock 1) h w) :
    ∃ t, w.threads = [t] ∧ Serving w.session.emits t.idle t.stack := by
  refine run.invariant (fun _ w => ∃ t, w.threads = [t] ∧ Serving w.session.emits t.idle t.stack)
    ⟨{}, rfl, trivial⟩ ?_
  rintro h w d w' - ⟨t, ht, hserving⟩ hm -
  rw [hm.emits]
  rcases hm.threads with ⟨he, hplain⟩ | ⟨l₁, l₂, t₁, t', hold, hnew, hadv, -⟩
  · refine ⟨t, he.trans ht, ?_⟩
    cases d with
    | none => exact hserving
    | some d =>
      rw [Option.any_some, (Deed.of_isPlain (hplain d rfl)).2]
      exact hserving
  · -- the thread that goes on is the only one
    obtain ⟨rfl, rfl, rfl⟩ : l₁ = [] ∧ l₂ = [] ∧ t₁ = t := by
      rw [ht] at hold
      cases l₁ with
      | nil =>
        obtain ⟨rfl, rfl⟩ := List.cons.inj hold
        exact ⟨rfl, rfl, rfl⟩
      | cons t₂ l₁ =>
        have hlength := congrArg List.length hold
        simp at hlength
    exact ⟨t', hnew, hserving.advance hadv⟩

/-- The event that an inbox is offered is that of the emit that has started last. -/
theorem Threads.Moves.offered_last {w' : Threads α ε} {k id : Nat} {event : α} {lost : Option α}
    (run : Run (.new capacity clock 1) h w) (hm : w.Moves (some (.offered k id event lost)) w') :
    k + 1 = w.session.emits := by
  obtain ⟨t, ht, hserving⟩ := run.serving
  obtain ⟨f, hf, rfl, -, targets, htargets⟩ := hm.frame_of_offered
  have hne : f.targets ≠ [] := htargets ▸ List.cons_ne_nil id targets
  rw [Threads.frames, ht, List.flatMap_singleton] at hf
  cases hstack : t.stack with
  | nil =>
    rw [hstack] at hf
    cases hf
  | cons g outer =>
    rw [hstack] at hf hserving
    rcases List.mem_cons.1 hf with rfl | hin
    · exact (hserving.2 hne).2
    · exact absurd (hserving.1 f hin) hne

/-- **Every inbox is offered its events in the order in which their emits have started.** -/
theorem Run.offers_sorted (run : Run (.new capacity clock 1) h w) (id : Nat) :
    (offers id h).Pairwise (·.1 < ·.1) := by
  refine run.invariant_deed (fun h _ => (offers id h).Pairwise fun p q => p.1 < q.1) .nil
    (fun _ _ _ _ hp _ => hp) (fun h w d w' run hp hm _ => ?_)
  rw [offers_concat]
  cases ho : d.offer? id with
  | none => rwa [Option.toList_none, List.append_nil]
  | some p =>
    cases d with
    | offered k id' event lost =>
      rw [Deed.offer?] at ho
      split at ho
      · cases ho
        subst id'
        obtain ⟨-, -, -, -, -, -, hnot⟩ := hm.of_offered run
        have hlast := hm.offered_last run
        rw [Option.toList_some, List.pairwise_append]
        refine ⟨hp, List.pairwise_singleton _ _, fun q hq r hr => ?_⟩
        rw [List.mem_singleton.1 hr]
        obtain ⟨lost', hd⟩ := mem_offers.1 hq
        have hlt := run.emits.numbers _ hd q.1 rfl
        have hne : q.1 ≠ k := fun he => hnot (he ▸ mem_served_of_offered hd)
        show q.1 < k
        omega
      · cases ho
    | _ => cases ho

/-- An emit that starts inside of others has a higher number. -/
theorem Run.lt_of_within {j k : Nat} {within : List Nat} {topic : String} {event : α}
    {audience listeners : List Nat} (run : Run (.new capacity clock n) h w)
    (hj : .started j within topic event audience listeners ∈ h) (hk : k ∈ within) : k < j := by
  obtain ⟨h₁, h₂, rfl⟩ := List.append_of_mem hj
  obtain ⟨w₁, w₂, run₁, -, hm, rfl, -⟩ := run.split
  obtain ⟨l₁, l₂, idle, idle', stack, stack', hf, -, hadv⟩ := hm.frames
  cases hadv with
  | other _ hd => cases hd
  | started =>
    obtain ⟨f, hmem, rfl⟩ := List.mem_map.1 hk
    exact run₁.emits.number_lt (hf ▸ List.mem_append_right _ (List.mem_append_left _ hmem))

/-- An emit has one event. -/
theorem Run.event_eq {k id : Nat} {within : List Nat} {topic : String} {event event' : α}
    {audience listeners : List Nat} (run : Run (.new capacity clock n) h w)
    (hs : .started k within topic event audience listeners ∈ h)
    (ho : (k, event') ∈ offers id h) : event' = event := by
  obtain ⟨h₁, h₂, rfl⟩ := List.append_of_mem hs
  obtain ⟨lost, hd⟩ := mem_offers.1 ho
  have hmem := mem_deedsOf.2 ⟨hd, rfl⟩
  rw [run.deedsOf_started, List.mem_cons] at hmem
  exact (run.course.deeds _ (hmem.resolve_left nofun)).resolve_right nofun

/-- What two inboxes have both been offered, they have been offered in the same order. -/
theorem Run.shared_offers (run : Run (.new capacity clock 1) h w) (i j : Nat) :
    (offers i h).filter (fun p => p.1 ∈ (offers j h).map (·.1)) =
      (offers j h).filter (fun p => p.1 ∈ (offers i h).map (·.1)) := by
  have hmem (i j : Nat) (p : Nat × α) (hp : p ∈ offers i h) (hj : p.1 ∈ (offers j h).map (·.1)) :
      p ∈ offers j h ∧ p.1 ∈ (offers i h).map (·.1) := by
    obtain ⟨⟨k, event⟩, hq, hk⟩ := List.mem_map.1 hj
    obtain ⟨k', event'⟩ := p
    cases hk
    -- the emit has started with one event
    obtain ⟨lost, hd⟩ := mem_offers.1 hq
    obtain ⟨h₁, h₂, rfl⟩ := List.append_of_mem hd
    obtain ⟨w₁, w₂, run₁, -, hm, -⟩ := run.split
    obtain ⟨within, topic, audience, listeners, hs, -⟩ := hm.of_offered run₁
    rw [run.event_eq (List.mem_append_left _ hs) hp]
    exact ⟨hq, List.mem_map_of_mem (f := (·.1)) hp⟩
  have hanti : Std.Antisymm fun p q : Nat × α => p.1 < q.1 :=
    ⟨fun p q hpq hqp => absurd (Nat.lt_trans hpq hqp) (Nat.lt_irrefl _)⟩
  have hirrefl : Std.Irrefl fun p q : Nat × α => p.1 < q.1 := ⟨fun p => Nat.lt_irrefl _⟩
  refine ((run.offers_sorted i).filter _).eq_of_mem_iff ((run.offers_sorted j).filter _) fun p => ?_
  simp only [List.mem_filter, decide_eq_true_iff]
  exact ⟨fun hp => hmem i j p hp.1 hp.2, fun hp => hmem j i p hp.1 hp.2⟩

/-- The order of events, after a history. -/
structure InOrder (h : History α) (w : Threads α ε) : Prop where
  /-- Emits are numbered in the order in which they have started. -/
  starts : h.filterMap Deed.started? = List.range w.session.emits
  /-- Every inbox has been offered its events in this order. -/
  offers : ∀ id, (Bus.offers id h).Pairwise (·.1 < ·.1)
  /-- What an open inbox holds are the last of these events. -/
  queue : ∀ id i, w.session.bus.inbox? id = some i → i.closed = false →
    i.events = ((Bus.offers id h).drop (departures id h).length).map (·.2)
  /-- Two inboxes have been offered the events that they share in the same order. -/
  shared : ∀ i j, (Bus.offers i h).filter (fun p => p.1 ∈ (Bus.offers j h).map (·.1)) =
    (Bus.offers j h).filter (fun p => p.1 ∈ (Bus.offers i h).map (·.1))
  /-- An event comes before all events that are emitted in reaction to it. -/
  reaction : ∀ j within topic event audience listeners,
    .started j within topic event audience listeners ∈ h → ∀ k ∈ within,
      k < j ∧ ∀ id a b event', Bus.offers id h = a ++ (j, event') :: b → k ∉ b.map (·.1)

/-- **On one thread events arrive in the order in which they are emitted.** -/
theorem offers_in_order (run : Run (.new capacity clock 1) h w) : InOrder h w := by
  constructor
  case starts => exact run.emits.starts
  case offers => exact run.offers_sorted
  case queue =>
    intro id i hi ho
    rw [← run.pending_eq hi ho, pending, List.map_drop]
  case shared => exact run.shared_offers
  case reaction =>
    intro j within topic event audience listeners hs k hk
    have hlt := run.lt_of_within hs hk
    refine ⟨hlt, fun id a b event' ho hin => ?_⟩
    obtain ⟨p, hp, rfl⟩ := List.mem_map.1 hin
    have hsorted := run.offers_sorted id
    rw [ho, List.pairwise_append, List.pairwise_cons] at hsorted
    exact Nat.lt_asymm hlt (hsorted.2.1.1 p hp)

/-- A listener answers an event with another one on the same topic. -/
theorem offers_in_order_nested :
    ∃ (h : History Nat) (w : Threads Nat Unit), Run (.new 4 {} 1) h w ∧
      offers 1 h = [(0, 7), (1, 8)] ∧ offers 2 h = [(0, 7), (1, 8)] ∧ InOrder h w := by
  let callback : Callback Nat Unit := fun calls _ =>
    if calls = 0 then .call (.emit "t" 8) fun _ => .done else .done
  let program : Reaction Nat Unit :=
    .call (.subscribe "a" ["t"]) fun _ => .call (.subscribe "b" ["t"]) fun _ =>
      .call (.on "l" "t" callback) fun _ => .call (.emit "t" 7) fun _ => .done
  obtain ⟨h, w, run, ha, hb⟩ := Run.exists_of_play (.new 4 {} 1)
    (.begin 0 program :: List.replicate 14 (.step 0))
    (fun h _ => offers 1 h = [(0, 7), (1, 8)] ∧ offers 2 h = [(0, 7), (1, 8)]) (by decide)
  exact ⟨h, w, run, ha, hb, offers_in_order run⟩

/-- A second thread starts its emit later and serves the inbox earlier. -/
example : ((Threads.new 4 {} 2 : Threads Nat Unit).play
    [.begin 0 (.call (.subscribe "a" ["t"]) fun _ => .call (.emit "t" 7) fun _ => .done),
      .begin 1 (.call (.emit "t" 8) fun _ => .done), .step 0, .step 0, .step 1, .step 1,
      .step 0]).any
    (fun r => offers 1 r.1 = [(1, 8), (0, 7)]) = true := by decide

end ScriptHost.Bus
