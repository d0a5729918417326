import ScriptHost.Proofs.Host.Step
import ScriptHost.Proofs.Stream.Request
import Mathlib.Data.List.Nodup

/-!
# Runs of a host

A *run* is any sequence of what can happen to a host: invocations are submitted, one of them takes a
step, and in between time passes, capabilities are used from outside, clients send or go away, and
requests come that are refused.  What holds after every run holds for every number of invocations
and every interleaving of what they do.

* `Host.Run`, `Host.Event` — runs, and the history of what has happened.
* `Host.Run.sound` — each invocation has an identity of its own, which all events refer to.
* `Host.Run.each` — a law of single invocations is proved by one case for each kind of event.
-/

set_option autoImplicit false

namespace ScriptHost.Host

open Request

variable {R : Regex} {ε : Type} {h₀ h h' : Host R ε}

/-! ## What happens to a host -/

/-- What can be seen of a run: an invocation comes, or the host takes a step. -/
inductive Event (R : Regex) (ε : Type) where
  | submitted (id : Nat) (transport : Transport)
  | stepped (label : Label) (before after : Host R ε)

/-- The invocation that something happens to. -/
def Event.id? : Event R ε → Option Nat
  | .submitted id _ => some id
  | .stepped label _ _ => label.id?

/-- What goes on outside of the host. -/
structure Meanwhile (h h' : Host R ε) : Prop where
  kept : Kept h h'
  free : h'.free = h.free
  requests : h.requests ≤ h'.requests
  now : h.clock.now ≤ h'.clock.now
  cancellations : h.clock.cancellations ⊆ h'.clock.cancellations
  invocations : ∃ exchange : Invocation ε → Exchange,
    h'.invocations = h.invocations.map (fun i => { i with exchange := exchange i }) ∧
      ∀ i ∈ h.invocations, Elapses i.exchange (exchange i)

/-- A host that nobody has used yet. -/
structure New (h : Host R ε) : Prop where
  free : h.free = workers h.config
  invocations : h.invocations = []
  requests : h.requests = 0

/-- A host is new when it has been built and given its handlers. -/
theorem new_of_ofConfig {config : HostConfig} {reachable : Database.Target → Bool}
    (hbuilt : ofConfig config reachable = .ok h) (handlers : Record (Handler ε)) :
    New { h with handlers } ∧ h.config = config := by
  simp only [ofConfig, bind, Except.bind] at hbuilt
  split at hbuilt
  · cases hbuilt
  · cases hbuilt
    exact ⟨⟨rfl, rfl, rfl⟩, rfl⟩

/-- The histories and hosts that can be reached from a host. -/
inductive Run (h₀ : Host R ε) : List (Event R ε) → Host R ε → Prop
  | start : Run h₀ [] h₀
  | submit {events : List (Event R ε)} {h h' : Host R ε} {route : String} {head : Head}
      {transport : Transport} {id : Nat} : Run h₀ events h →
        h.submit route head transport = .ok (id, h') →
        Run h₀ (events ++ [.submitted id transport]) h'
  | step {events : List (Event R ε)} {h h' : Host R ε} {label : Label} : Run h₀ events h →
      h.step label = some h' → Run h₀ (events ++ [.stepped label h h']) h'
  | meanwhile {events : List (Event R ε)} {h h' : Host R ε} : Run h₀ events h → Meanwhile h h' →
      Run h₀ events h'

/-- What a run chooses from. -/
inductive Move where
  | submit (route : String) (head : Head) (transport : Transport)
  | step (label : Label)

/-- The history and the host after these moves, if they can be made. -/
def play (h : Host R ε) : List Move → Option (List (Event R ε) × Host R ε)
  | [] => some ([], h)
  | .submit route head transport :: moves =>
    match h.submit route head transport with
    | .ok (id, h') => (h'.play moves).map fun p => (.submitted id transport :: p.1, p.2)
    | .error _ => none
  | .step label :: moves =>
    (h.step label).bind fun h' => (h'.play moves).map fun p => (.stepped label h h' :: p.1, p.2)

theorem Run.of_play {events events' : List (Event R ε)} (run : Run h₀ events h) {moves : List Move}
    (hplay : h.play moves = some (events', h')) : Run h₀ (events ++ events') h' := by
  induction moves generalizing h events events' with
  | nil =>
    cases hplay
    rwa [List.append_nil]
  | cons move moves ih =>
    cases move with
    | submit route head transport =>
      rw [play] at hplay
      split at hplay
      · rename_i id h₁ hsubmit
        obtain ⟨⟨events₁, h₂⟩, hrest, heq⟩ := Option.map_eq_some_iff.1 hplay
        cases heq
        rw [List.append_cons]
        exact ih (run.submit hsubmit) hrest
      · cases hplay
    | step label =>
      obtain ⟨h₁, hstep, hrest⟩ := Option.bind_eq_some_iff.1 hplay
      obtain ⟨⟨events₁, h₂⟩, hlater, heq⟩ := Option.map_eq_some_iff.1 hrest
      cases heq
      rw [List.append_cons]
      exact ih (run.step hstep) hlater

/-- Making some moves finds a run. -/
theorem Run.exists_of_play (h₀ : Host R ε) (moves : List Move)
    (p : List (Event R ε) → Host R ε → Prop) [∀ events h, Decidable (p events h)]
    (hplay : (h₀.play moves).any (fun r => decide (p r.1 r.2)) = true) :
    ∃ events h, Run h₀ events h ∧ p events h := by
  obtain ⟨⟨events, h⟩, hplay, hp⟩ := (Option.any_eq_true ..).1 hplay
  exact ⟨events, h, Run.start.of_play hplay, of_decide_eq_true hp⟩

/-! ## What has happened -/

section History

variable {events : List (Event R ε)} {before after : Host R ε} {label other : Label} {id : Nat}

theorem mem_concat_submitted {n : Nat} {transport : Transport} :
    .stepped label before after ∈ events ++ [.submitted n transport] ↔
      .stepped label before after ∈ events := by
  simp

/-- A step of another kind. -/
theorem mem_concat_of_ne (hne : other ≠ label) :
    .stepped label before after ∈ events ++ [.stepped other h h'] ↔
      .stepped label before after ∈ events := by
  rw [List.mem_append, List.mem_singleton, or_iff_left]
  intro heq
  cases heq
  exact hne rfl

/-- What happens to another invocation. -/
theorem mem_concat_of_other {e : Event R ε} (he : e.id? ≠ some id) (hlabel : label.id? = some id) :
    .stepped label before after ∈ events ++ [e] ↔ .stepped label before after ∈ events := by
  rw [List.mem_append, List.mem_singleton, or_iff_left]
  rintro rfl
  exact he hlabel

end History

/-! ## Submitting -/

/-- An invocation as it is submitted. -/
def submission (h : Host R ε) (route : String) (handler : Handler ε) (head : Head)
    (transport : Transport) : Invocation ε :=
  { id := h.requests + 1, route, handler
    exchange :=
      { context := .new h.clock head h.config.serviceTimeoutMs ⟨h.requests + 1⟩ ⟨h.requests + 1⟩
        wire := { clock := h.clock, transport } } }

/-- What submitting does. -/
theorem submit_eq_ok {route : String} {head : Head} {transport : Transport} {id : Nat}
    (hsubmit : h.submit route head transport = .ok (id, h')) :
    id = h.requests + 1 ∧ ∃ handler, Record.get? h.handlers route = some handler ∧
      h' = { h with
        requests := h.requests + 1
        invocations := h.invocations ++ [h.submission route handler head transport] } := by
  rw [submit] at hsubmit
  split at hsubmit
  · cases hsubmit
  · rename_i handler hhandler
    cases hsubmit
    exact ⟨rfl, handler, hhandler, rfl⟩

/-! ## Identities -/

/-- Each invocation has an identity of its own, and nothing has happened to any other. -/
structure Sound (events : List (Event R ε)) (h : Host R ε) : Prop where
  nodup : (h.invocations.map (·.id)).Nodup
  le : ∀ i ∈ h.invocations, i.id ≤ h.requests
  events_le : ∀ e ∈ events, ∀ id, e.id? = some id → id ≤ h.requests

theorem find?_of_mem {i : Invocation ε} (hnodup : (h.invocations.map (·.id)).Nodup)
    (hi : i ∈ h.invocations) : h.find? i.id = some i := by
  cases hj : h.find? i.id with
  | none => simpa using List.find?_eq_none.1 hj i hi
  | some j =>
    rw [List.inj_on_of_nodup_map hnodup (mem_of_find? hj) hi (id_of_find? hj)]

theorem ids_set (h : Host R ε) (i : Invocation ε) :
    (h.set i).invocations.map (·.id) = h.invocations.map (·.id) := by
  rw [set, List.map_map]
  refine List.map_congr_left fun j _ => ?_
  simp only [Function.comp_apply]
  split
  · rename_i heq
    exact heq.symm
  · rfl

theorem Turn.ids {label : Label} {i i' : Invocation ε} (turn : Turn h label i i' h') :
    h'.invocations.map (·.id) = h.invocations.map (·.id) := by
  rw [turn.invocations, ids_set]

theorem Turn.id? {label : Label} {i i' : Invocation ε} (turn : Turn h label i i' h') :
    (Event.stepped label h h').id? = some i.id := turn.becomes.id?_eq

theorem Run.sound {events : List (Event R ε)} (hnew : New h₀) (run : Run h₀ events h) :
    Sound events h := by
  induction run with
  | start => exact ⟨by simp [hnew.invocations], by simp [hnew.invocations], by simp⟩
  | @submit events h _ route head transport _ _ hsubmit ih =>
    obtain ⟨rfl, handler, -, rfl⟩ := submit_eq_ok hsubmit
    refine ⟨?_, ?_, ?_⟩
    · rw [List.map_append, List.nodup_append_comm]
      refine List.nodup_cons.2 ⟨fun hmem => ?_, ih.nodup⟩
      obtain ⟨i, hi, heq⟩ := List.mem_map.1 hmem
      exact absurd (heq ▸ ih.le i hi) (Nat.not_succ_le_self _)
    · intro i hi
      rcases List.mem_append.1 hi with hi | hi
      · exact Nat.le_succ_of_le (ih.le i hi)
      · rw [List.mem_singleton.1 hi]
        exact Nat.le_refl _
    · intro e he id hid
      rcases List.mem_append.1 he with he | he
      · exact Nat.le_succ_of_le (ih.events_le e he id hid)
      · rw [List.mem_singleton.1 he] at hid
        cases hid
        exact Nat.le_refl _
  | @step events h h' label run hstep ih =>
    rcases turn_of_step hstep with ⟨ms, rfl, rfl⟩ | ⟨i, i', turn⟩
    · refine ⟨ih.nodup, ih.le, List.forall_mem_append.2 ⟨ih.events_le, ?_⟩⟩
      simp [Event.id?, Label.id?]
    · have hids := turn.ids
      refine ⟨hids ▸ ih.nodup, fun j hj => ?_, List.forall_mem_append.2 ⟨?_, ?_⟩⟩
      · obtain ⟨k, hk, heq⟩ := List.mem_map.1 (hids ▸ List.mem_map_of_mem hj)
        rw [turn.requests, ← heq]
        exact ih.le k hk
      · rw [turn.requests]
        exact ih.events_le
      · intro e he id hid
        rw [List.mem_singleton.1 he, turn.id?] at hid
        cases hid
        rw [turn.requests]
        exact ih.le i (mem_of_find? turn.found)
  | @meanwhile events h h' _ hmeanwhile ih =>
    obtain ⟨exchange, hinvocations, -⟩ := hmeanwhile.invocations
    have hids : h'.invocations.map (·.id) = h.invocations.map (·.id) := by
      rw [hinvocations, List.map_map]
      rfl
    refine ⟨hids ▸ ih.nodup, fun j hj => ?_, fun e he id hid => ?_⟩
    · obtain ⟨k, hk, heq⟩ := List.mem_map.1 (hids ▸ List.mem_map_of_mem hj)
      exact heq ▸ Nat.le_trans (ih.le k hk) hmeanwhile.requests
    · exact Nat.le_trans (ih.events_le e he id hid) hmeanwhile.requests

/-- **Laws of single invocations.**  What holds of an invocation when it is submitted, and survives
its own steps, all that happens to others and all that goes on outside, holds of every
invocation. -/
theorem Run.each {events : List (Event R ε)} (hnew : New h₀) (run : Run h₀ events h)
    (law : List (Event R ε) → Invocation ε → Prop)
    (submitted : ∀ {events h route handler head transport}, Run h₀ events h →
      (∀ e ∈ events, e.id? ≠ some (h.requests + 1)) →
      law (events ++ [.submitted (h.requests + 1) transport])
        (h.submission route handler head transport))
    (turned : ∀ {events h label i i' h'}, Run h₀ events h → Turn h label i i' h' → law events i →
      law (events ++ [.stepped label h h']) i')
    (other : ∀ {events e i}, e.id? ≠ some i.id → law events i → law (events ++ [e]) i)
    (elapsed : ∀ {events i x}, Elapses i.exchange x → law events i →
      law events { i with exchange := x }) :
    ∀ i ∈ h.invocations, law events i := by
  induction run with
  | start => simp [hnew.invocations]
  | @submit events h _ route head transport _ run hsubmit ih =>
    obtain ⟨rfl, handler, -, rfl⟩ := submit_eq_ok hsubmit
    have hsound := run.sound hnew
    intro i hi
    rcases List.mem_append.1 hi with hi | hi
    · refine other (fun heq => ?_) (ih i hi)
      have hle := hsound.le i hi
      rw [← Option.some.inj heq] at hle
      exact Nat.not_succ_le_self _ hle
    · rw [List.mem_singleton.1 hi]
      refine submitted run fun e he heq => ?_
      exact Nat.not_succ_le_self _ (hsound.events_le e he _ heq)
  | @step events h h' label run hstep ih =>
    rcases turn_of_step hstep with ⟨ms, rfl, rfl⟩ | ⟨i, i', turn⟩
    · exact fun i hi => other (by simp [Event.id?, Label.id?]) (ih i hi)
    · -- one invocation has taken a step, and for all others it is the step of another
      intro j hj
      rw [turn.invocations] at hj
      obtain ⟨k, hk, rfl⟩ := List.mem_map.1 hj
      split
      · exact turned run turn (ih i (mem_of_find? turn.found))
      · rename_i hne
        refine other (fun heq => hne ?_) (ih k hk)
        rw [turn.id?] at heq
        rw [turn.becomes.id_eq]
        exact (Option.some.inj heq).symm
  | meanwhile run hmeanwhile ih =>
    obtain ⟨exchange, hinvocations, helapses⟩ := hmeanwhile.invocations
    intro j hj
    rw [hinvocations] at hj
    obtain ⟨i, hi, rfl⟩ := List.mem_map.1 hj
    exact elapsed (helapses i hi) (ih i hi)

end ScriptHost.Host
