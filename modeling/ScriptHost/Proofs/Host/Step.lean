import ScriptHost.Host.Run
import ScriptHost.Proofs.Capability.Registry
import ScriptHost.Proofs.Stream.Time

/-!
# What a step of a host does

Each step but the passing of time is taken by one invocation, whose worker or caller moves on; all
other invocations are left alone.  This file says once and for all what becomes of that invocation,
of its request and of the number of free workers, so that the laws of a host are proved by one case
for each kind of step.

* `Host.Becomes` — what a step makes of the invocation that takes it.
* `Host.Turn`, `Host.turn_of_step` — that is all that a step does to invocations and workers; the
  clock goes on meanwhile.
* `Host.find?_set`, `Host.countP_set` — one invocation is replaced among others.
-/

set_option autoImplicit false

namespace ScriptHost

namespace Work

variable {ε : Type}

/-- The handler is running. -/
def isRunning : Work ε → Bool
  | .handling _ | .calling _ _ _ | .waiting _ _ _ | .sleeping _ _ => true
  | _ => false

/-- The handler is about to return or to crash. -/
def isEnding : Work ε → Bool
  | .handling (.done _) | .handling .crash => true
  | _ => false

/-- Before there is a worker, while there is one, and when it is free again. -/
inductive Stage where
  | ahead
  | busy
  | over
deriving DecidableEq

/-- How far a work has come. -/
def stage : Work ε → Stage
  | .queued | .inLine => .ahead
  | .over _ => .over
  | _ => .busy

theorem stage_of_isRunning {w : Work ε} (hw : w.isRunning = true) : w.stage = .busy := by
  cases w <;> first | rfl | cases hw

end Work

namespace Host

variable {R : Regex} {ε : Type} {h h' : Host R ε} {i i' j : Invocation ε} {label : Label}
  {free : Nat}

/-! ## One invocation among others -/

theorem id_of_find? {id : Nat} (hi : h.find? id = some i) : i.id = id := by
  simpa using List.find?_some hi

theorem mem_of_find? {id : Nat} (hi : h.find? id = some i) : i ∈ h.invocations :=
  List.mem_of_find?_eq_some hi

theorem find?_set (h : Host R ε) (i : Invocation ε) (id : Nat) :
    (h.set i).find? id = (h.find? id).map fun j => if j.id = i.id then i else j := by
  rw [find?, set, List.find?_map, find?]
  congr 2
  funext j
  by_cases hj : j.id = i.id <;> simp [hj]

theorem countP_set (hnodup : (h.invocations.map (·.id)).Nodup) (hj : h.find? i.id = some j)
    (p : Invocation ε → Bool) :
    (h.set i).invocations.countP p + (if p j then 1 else 0) =
      h.invocations.countP p + (if p i then 1 else 0) := by
  rw [find?] at hj
  rw [set]
  dsimp only
  generalize h.invocations = invocations at hnodup hj
  induction invocations with
  | nil => cases hj
  | cons a invocations ih =>
    rw [List.map_cons, List.nodup_cons] at hnodup
    rw [List.find?_cons] at hj
    by_cases ha : a.id = i.id
    · have hothers : invocations.map (fun j => if j.id = i.id then i else j) = invocations := by
        refine (List.map_congr_left fun k hk => if_neg fun heq => hnodup.1 ?_).trans
          (List.map_id' _)
        rw [ha, ← heq]
        exact List.mem_map_of_mem hk
      simp only [ha, decide_true, Option.some.injEq] at hj
      rw [List.map_cons, hothers, if_pos ha, List.countP_cons, List.countP_cons, hj]
      omega
    · simp only [ha, decide_false] at hj
      have := ih hnodup.2 hj
      rw [List.map_cons, if_neg ha, List.countP_cons, List.countP_cons]
      omega

/-! ## Steps -/

/-- The invocation that takes a step. -/
def Label.id? : Label → Option Nat
  | .enqueue id | .assign id | .start id | .act id | .judge id | .answer id | .conclude id
  | .expire id | .cancel id => some id
  | .pass _ => none

/-- What a step makes of the invocation that takes it, and how many workers are free then. -/
inductive Becomes (h : Host R ε) : Label → Invocation ε → Invocation ε → Nat → Prop
  | enqueued {i : Invocation ε} : i.work = .queued →
      Becomes h (.enqueue i.id) i { i with work := .inLine } h.free
  | assigned {i : Invocation ε} : i.work = .inLine → h.free ≠ 0 →
      Becomes h (.assign i.id) i { i with work := .assigned } (h.free - 1)
  | turnedAway {i : Invocation ε} : i.work = .assigned → h.clock.isCancelled i.token = true →
      Becomes h (.start i.id) i
        { (i.act h.clock Act.abort).2.2.conclude .cancelledEarly with
          work := .over fun _ => .cancelledEarly } (h.free + 1)
  | started {i : Invocation ε} : i.work = .assigned → h.clock.isCancelled i.token = false →
      Becomes h (.start i.id) i
        { (i.act h.clock (Act.resetTimeout h.config.serviceTimeoutMs)).2.2 with
          work := .handling i.handler, state := .running
          timer := h.serviceTimeout?.map (h.clock.now + ·) } h.free
  /-- The handler goes on without its request. -/
  | wentOn {i : Invocation ε} {w : Work ε} : i.work.isRunning = true → i.work.isEnding = false →
      w.isRunning = true → Becomes h (.act i.id) i { i with work := w } h.free
  /-- A call on the request that began some time ago is done. -/
  | called {i : Invocation ε} {c : Request.Call} {since : Nat}
      {next : Outcome Request.Reply → Handler ε} {reply : Outcome Request.Reply} :
      i.work = .calling c since next →
      Becomes h (.act i.id) i
        { (i.act { h.clock with now := since } (Request.act c)).2.2 with
          work := .handling (next reply) } h.free
  | returned {i : Invocation ε} {r : Outcome Value} : i.work = .handling (.done r) →
      Becomes h (.act i.id) i { i with work := .returned r } h.free
  | crashed {i : Invocation ε} : i.work = .handling .crash →
      Becomes h (.act i.id) i { i with work := .over fun _ => .crashed } (h.free + 1)
  | judged {i : Invocation ε} {r : Outcome Value} : i.work = .returned r →
      Becomes h (.judge i.id) i
        { i with work := .judged r (i.exchange.context.deadline.isExpired h.clock) } h.free
  | answered {i : Invocation ε} {r : Outcome Value} {expired : Bool} : i.work = .judged r expired →
      Becomes h (.answer i.id) i
        { (i.act h.clock (Act.finishResponse i.clientCancelled r)).2.2 with
          work := .over (Verdict.ofReturn r expired) } (h.free + 1)
  | concluded {i : Invocation ε} {verdict : Bool → Verdict} : i.verdict = none →
      i.work = .over verdict →
      Becomes h (.conclude i.id) i (i.conclude (verdict i.clientCancelled)) h.free
  | expired {i : Invocation ε} {instant : Nat} : i.verdict = none → i.timer = some instant →
      instant ≤ h.clock.now →
      Becomes h (.expire i.id) i (i.conclude (.timeOut Verdict.serviceTimeout)) h.free
  | cancelled {i : Invocation ε} : Becomes h (.cancel i.id) i
    { i with clientCancelled := true } h.free

theorem Becomes.id_eq (hb : Becomes h label i i' free) : i'.id = i.id := by
  cases hb <;> rfl

theorem Becomes.id?_eq (hb : Becomes h label i i' free) : label.id? = some i.id := by
  cases hb <;> rfl

theorem isBusy_eq (i : Invocation ε) : i.isBusy = decide (i.work.stage = .busy) := by
  rw [Invocation.isBusy]
  cases i.work <;> rfl

/-- A step leaves the workers alone, or the invocation takes one, or it gives its own back. -/
theorem Becomes.shift (hb : Becomes h label i i' free) :
    (free = h.free ∧ i'.work.stage = i.work.stage) ∨
      (free + 1 = h.free ∧ i.work.stage = .ahead ∧ i'.work.stage = .busy) ∨
      (free = h.free + 1 ∧ i.work.stage = .busy ∧ i'.work.stage = .over) := by
  cases hb with
  | enqueued hwork => exact .inl ⟨rfl, by rw [hwork]; rfl⟩
  | assigned hwork hfree =>
    exact .inr (.inl ⟨Nat.succ_pred_eq_of_ne_zero hfree, by rw [hwork]; rfl, rfl⟩)
  | turnedAway hwork => exact .inr (.inr ⟨rfl, by rw [hwork]; rfl, rfl⟩)
  | started hwork => exact .inl ⟨rfl, by rw [hwork]; rfl⟩
  | wentOn hwork _ hw =>
    exact .inl ⟨rfl, (Work.stage_of_isRunning hw).trans (Work.stage_of_isRunning hwork).symm⟩
  | called hwork => exact .inl ⟨rfl, by rw [hwork]; rfl⟩
  | returned hwork => exact .inl ⟨rfl, by rw [hwork]; rfl⟩
  | crashed hwork => exact .inr (.inr ⟨rfl, by rw [hwork]; rfl, rfl⟩)
  | judged hwork => exact .inl ⟨rfl, by rw [hwork]; rfl⟩
  | answered hwork => exact .inr (.inr ⟨rfl, by rw [hwork]; rfl, rfl⟩)
  | concluded | expired | cancelled => exact .inl ⟨rfl, rfl⟩

/-- What a host is given once and for all. -/
structure Kept (h h' : Host R ε) : Prop where
  config : h'.config = h.config
  router : h'.router = h.router
  handlers : h'.handlers = h.handlers

/-- A step that an invocation takes. -/
structure Turn (h : Host R ε) (label : Label) (i i' : Invocation ε) (h' : Host R ε) : Prop where
  found : h.find? i.id = some i
  becomes : Becomes h label i i' h'.free
  invocations : h'.invocations = (h.set i').invocations
  requests : h'.requests = h.requests
  kept : Kept h h'
  clock : h.clock.Precedes h'.clock

theorem turn_of_act (hi : h.find? i.id = some i) (hstep : h.act i = some h') :
    ∃ i', Turn h (.act i.id) i i' h' := by
  -- a handler that goes on without its request has only changed its own work
  have wentOn {w : Work ε} {h' : Host R ε} (hrunning : i.work.isRunning = true)
      (hending : i.work.isEnding = false) (hw : w.isRunning = true) (hfree : h'.free = h.free)
      (hinvocations : h'.invocations = (h.set { i with work := w }).invocations)
      (hrequests : h'.requests = h.requests) (hkept : Kept h h')
      (hclock : h.clock.Precedes h'.clock) : ∃ i', Turn h (.act i.id) i i' h' :=
    ⟨_, hi, hfree ▸ .wentOn hrunning hending hw, hinvocations, hrequests, hkept, hclock⟩
  rw [act] at hstep
  split at hstep
  case h_1 r hwork =>
    cases hstep
    exact ⟨_, hi, .returned hwork, rfl, rfl, ⟨rfl, rfl, rfl⟩, .refl _⟩
  case h_2 hwork =>
    cases hstep
    exact ⟨_, hi, .crashed hwork, rfl, rfl, ⟨rfl, rfl, rfl⟩, .refl _⟩
  case h_3 entry next hwork =>
    cases hstep
    exact wentOn (by rw [hwork]; rfl) (by rw [hwork]; rfl) rfl rfl rfl rfl ⟨rfl, rfl, rfl⟩ (.refl _)
  case h_4 next hwork =>
    cases hstep
    exact wentOn (by rw [hwork]; rfl) (by rw [hwork]; rfl) rfl rfl rfl rfl ⟨rfl, rfl, rfl⟩ (.refl _)
  case h_5 c next hwork =>
    cases hstep
    exact wentOn (by rw [hwork]; rfl) (by rw [hwork]; rfl) rfl rfl rfl rfl ⟨rfl, rfl, rfl⟩ (.refl _)
  case h_6 kind config next hwork =>
    have hclock : (h.registry.resolveNamed kind config).2.clock = h.clock :=
      h.registry.clock_resolveNamed kind config
    cases hstep
    exact wentOn (by rw [hwork]; rfl) (by rw [hwork]; rfl) rfl rfl rfl rfl ⟨rfl, rfl, rfl⟩
      (hclock ▸ .refl _)
  case h_7 c u ms next hwork =>
    dsimp only at hstep
    have hclock :=
      (h.registry.undisturbed_start c u (i.exchange.context.deadlineFor h.clock ms)).clock.precedes
    split at hstep
    all_goals
      rename_i heq
      rw [heq] at hclock
      cases hstep
      exact wentOn (by rw [hwork]; rfl) (by rw [hwork]; rfl) rfl rfl rfl rfl ⟨rfl, rfl, rfl⟩ hclock
  case h_8 ms next hwork =>
    cases hstep
    exact wentOn (by rw [hwork]; rfl) (by rw [hwork]; rfl) rfl rfl rfl rfl ⟨rfl, rfl, rfl⟩ (.refl _)
  case h_9 c since next hwork =>
    dsimp only at hstep
    have honward := Request.onward_act c
      { i.exchange with wire := { i.exchange.wire with clock := { h.clock with now := since } } }
    split at hstep
    · cases hstep
      exact ⟨_, hi, .called hwork, rfl, rfl, ⟨rfl, rfl, rfl⟩, honward.clock.cancellations,
        Nat.le_refl _⟩
    · cases hstep
  case h_10 waiting d next hwork =>
    have hclock := (h.registry.undisturbed_onWaiting waiting fun _ _ caller m =>
      m.settle.take caller).clock.precedes
    split at hstep
    · rename_i heq
      rw [← Registry.poll, heq] at hclock
      cases hstep
      exact wentOn (by rw [hwork]; rfl) (by rw [hwork]; rfl) rfl rfl rfl rfl ⟨rfl, rfl, rfl⟩ hclock
    · cases hstep
  case h_11 instant next hwork =>
    split at hstep
    · cases hstep
      exact wentOn (by rw [hwork]; rfl) (by rw [hwork]; rfl) rfl rfl rfl rfl ⟨rfl, rfl, rfl⟩
        (.refl _)
    · cases hstep
  case h_12 => cases hstep

/-- **What a step does**: either time passes, or it is a step of one invocation. -/
theorem turn_of_step (hstep : h.step label = some h') :
    (∃ ms, label = .pass ms ∧ h' = h.setClock (h.clock.pass ms)) ∨
      ∃ i i', Turn h label i i' h' := by
  -- every step but that of time begins by looking its invocation up
  have found {id : Nat} {f : Invocation ε → Option (Host R ε)} (hf : (h.find? id >>= f) = some h') :
      ∃ i, i.id = id ∧ h.find? i.id = some i ∧ f i = some h' := by
    obtain ⟨i, hi, hstep⟩ := Option.bind_eq_some_iff.1 hf
    obtain rfl := id_of_find? hi
    exact ⟨i, rfl, hi, hstep⟩
  cases label with
  | enqueue id =>
    obtain ⟨i, rfl, hi, hf⟩ := found hstep
    rw [enqueue] at hf
    split at hf <;> cases hf
    rename_i hwork
    exact .inr ⟨i, _, hi, .enqueued hwork, rfl, rfl, ⟨rfl, rfl, rfl⟩, .refl _⟩
  | assign id =>
    obtain ⟨i, rfl, hi, hf⟩ := found hstep
    rw [assign] at hf
    split at hf
    · rename_i hwork
      split at hf <;> cases hf
      rename_i hfree
      exact .inr ⟨i, _, hi, .assigned hwork hfree, rfl, rfl, ⟨rfl, rfl, rfl⟩, .refl _⟩
    · cases hf
  | start id =>
    obtain ⟨i, rfl, hi, hf⟩ := found hstep
    rw [start] at hf
    split at hf
    · rename_i hwork
      split at hf <;> cases hf
      · rename_i hcancelled
        exact .inr ⟨i, _, hi, .turnedAway hwork hcancelled, rfl, rfl, ⟨rfl, rfl, rfl⟩, .refl _⟩
      · rename_i hcancelled
        exact .inr ⟨i, _, hi, .started hwork (Bool.eq_false_iff.2 hcancelled), rfl, rfl,
          ⟨rfl, rfl, rfl⟩, .refl _⟩
    · cases hf
  | act id =>
    obtain ⟨i, rfl, hi, hf⟩ := found hstep
    exact .inr ⟨i, turn_of_act hi hf⟩
  | judge id =>
    obtain ⟨i, rfl, hi, hf⟩ := found hstep
    rw [judge] at hf
    split at hf <;> cases hf
    rename_i hwork
    exact .inr ⟨i, _, hi, .judged hwork, rfl, rfl, ⟨rfl, rfl, rfl⟩, .refl _⟩
  | answer id =>
    obtain ⟨i, rfl, hi, hf⟩ := found hstep
    rw [answer] at hf
    split at hf <;> cases hf
    rename_i r expired hwork
    -- finishing takes time, and the clock of the exchange may have been behind
    have honward := Act.onward_finishResponse i.clientCancelled r
      { i.exchange with wire := { i.exchange.wire with clock := h.clock } }
    exact .inr ⟨i, _, hi, .answered hwork, rfl, rfl, ⟨rfl, rfl, rfl⟩, honward.clock.cancellations,
      Nat.le_max_right ..⟩
  | conclude id =>
    obtain ⟨i, rfl, hi, hf⟩ := found hstep
    rw [conclude] at hf
    split at hf <;> cases hf
    rename_i hverdict hwork
    exact .inr ⟨i, _, hi, .concluded hverdict hwork, rfl, rfl, ⟨rfl, rfl, rfl⟩, .refl _⟩
  | expire id =>
    obtain ⟨i, rfl, hi, hf⟩ := found hstep
    rw [expire] at hf
    split at hf
    · rename_i hverdict htimer
      split at hf <;> cases hf
      rename_i hinstant
      exact .inr ⟨i, _, hi, .expired hverdict htimer hinstant, rfl, rfl, ⟨rfl, rfl, rfl⟩,
        h.clock.precedes_cancel _⟩
    · cases hf
  | cancel id =>
    obtain ⟨i, hi, rfl⟩ := Option.map_eq_some_iff.1 hstep
    obtain rfl := id_of_find? hi
    exact .inr ⟨i, _, hi, .cancelled, rfl, rfl, ⟨rfl, rfl, rfl⟩, h.clock.precedes_cancel _⟩
  | pass ms =>
    cases hstep
    exact .inl ⟨ms, rfl, rfl⟩

end Host

end ScriptHost
