import ScriptHost.Proofs.Stream.Request
import ScriptHost.Stream.Conversation

/-!
# The course of a request

A request comes further and never back, from its creation over its head and its body to one of four
terminal phases, and there it stays — but for one thing.  To abort a request is to drop its
transport, and that can still be done when it is completed or has timed out; only a request that has
become a WebSocket has no transport to drop any more.  So these two phases may give way to the
aborted one (`Phase.GivesWay`), and nothing else in a terminal phase ever moves.
-/

set_option autoImplicit false

namespace ScriptHost

namespace Phase

/-- The terminal phases that a request leaves when it is aborted. -/
def GivesWay (p q : Phase) : Prop := (p = .completed ∨ p = .timedOut) ∧ q = .aborted

/-- Two stretches of a course make one; the two sides say what must have happened in a stretch in
which a terminal phase has given way. -/
theorem comes_trans {p q r : Phase} {a b : Prop} (h : p.Leads q ∨ p.GivesWay q ∧ a)
    (h' : q.Leads r ∨ q.GivesWay r ∧ b) : p.Leads r ∨ p.GivesWay r ∧ (a ∨ b) := by
  rcases h with h | ⟨⟨hyields, rfl⟩, ha⟩
  · rcases h' with h' | ⟨⟨hyields, rfl⟩, hb⟩
    · exact .inl (h.trans h')
    · rcases h with rfl | ⟨hopen, -⟩
      · exact .inr ⟨⟨hyields, rfl⟩, .inr hb⟩
      · exact .inl (leads_of_open hopen rfl)
  · rcases h' with h' | ⟨⟨habsurd, -⟩, -⟩
    · exact .inr ⟨⟨hyields, (h'.eq_of_isTerminal rfl).symm⟩, .inl ha⟩
    · rcases habsurd with h | h <;> cases h

end Phase

namespace Request

open Exchange

/-- The phase after one call. -/
theorem Does.phase {x x' : Exchange} {c : Call} {r : Outcome Reply} (h : Does x c r x') :
    x.context.phase.Leads x'.context.phase ∨
      x.context.phase.GivesWay x'.context.phase ∧ c = .abort := by
  cases h with
  | quiet hquiet => exact .inl hquiet.phase
  | @sent _ _ s _ _ hsent =>
    left
    have hbefore := hsent.before
    rw [hsent.after]
    cases s with
    | wrote c data =>
      obtain rfl : c = x.context := hbefore
      exact .refl _
    | responded => exact Phase.leads_of_open hsent.opened rfl
    | upgraded => exact Phase.leads_of_open hsent.opened rfl
  | aborted hup =>
    cases hphase : x.context.phase with
    | upgraded => exact absurd hphase hup
    | completed => exact .inr ⟨⟨.inl rfl, rfl⟩, rfl⟩
    | timedOut => exact .inr ⟨⟨.inr rfl, rfl⟩, rfl⟩
    | aborted => exact .inl (.refl _)
    | created | headerRead | bodyStreaming => exact .inl (Phase.leads_of_open rfl rfl)
  | onSocket _ hon =>
    rw [hon.1]
    exact .inl (.refl _)

/-- **A request only comes further.**  Between any two moments of its course the phase is the same
or comes further, and a terminal one stays, whatever is called and whatever happens in between; it
gives way only to an abort, which no other terminal phase than `completed` and `timedOut` does. -/
theorem phase_of_handling {x x' : Exchange} {deeds : List Deed} (h : Handling x deeds x') :
    (x.context.phase.Leads x'.context.phase ∨
      x.context.phase.GivesWay x'.context.phase ∧ ∃ d ∈ deeds, d.call = .abort) ∧
    (x'.context.phase ≠ .upgraded → (call x' .abort).2.context.phase = .aborted) := by
  refine ⟨?_, fun hup => by rw [call_abort, if_neg hup]⟩
  induction h with
  | start => exact .inl (.refl _)
  | @call deeds x₁ _ c ih =>
    refine (Phase.comes_trans ih (Deed.does ⟨c, x₁⟩).phase).imp_right fun ⟨hgives, h⟩ =>
      ⟨hgives, ?_⟩
    rcases h with ⟨d, hd, habort⟩ | habort
    · exact ⟨d, List.mem_append_left _ hd, habort⟩
    · exact ⟨_, List.mem_append_right _ (List.mem_singleton_self _), habort⟩
  | @readOn deeds x₁ _ r ih =>
    have hread := (Act.quiet_doRead r x₁).phase
    refine (Phase.comes_trans (b := False) ih (.inl hread)).imp_right fun ⟨hgives, h⟩ => ?_
    exact ⟨hgives, h.resolve_right id⟩
  | meanwhile _ helapses ih => rwa [helapses.context]

/-- A request is created, completed, asked for its method, and aborted. -/
theorem phase_of_handling_completed :
    let x₀ := (Conversation.start (.new "GET" "/") (-1) {}).exchange
    let x₁ := (call x₀ .complete).2
    let x₂ := (call x₁ .method).2
    let x₃ := (call x₂ .abort).2
    x₀.context.phase = .created ∧ x₀.context.phase.Leads x₁.context.phase ∧
      x₁.context.phase = .completed ∧ x₁.context.phase.Leads x₂.context.phase ∧
      x₃.context.phase = .aborted := by
  intro x₀ x₁ x₂ x₃
  have first := phase_of_handling (Handling.call (.start : Handling x₀ [] x₀) .complete)
  have second := phase_of_handling (Handling.call (.start : Handling x₁ [] x₁) .method)
  refine ⟨rfl, first.1.resolve_right fun h => ?_, rfl, second.1.resolve_right fun h => ?_,
    second.2 fun h => ?_⟩
  · rcases h.1.1 with h | h <;> cases h
  · cases h.1.2
  · cases h

/-- A request that is completed and then aborted does not stay completed. -/
theorem abort_overrides_completed :
    ¬ ∀ (earlier later : List Deed) (x x' : Exchange),
      Handling (Conversation.start (.new "GET" "/") (-1) {}).exchange earlier x →
        x.context.phase.isTerminal = true → Handling x later x' →
          x'.context.phase = x.context.phase := by
  intro h
  have hstays := h _ _ _ _ (.call .start .complete) rfl (.call .start .abort)
  cases hstays

end Request

end ScriptHost
