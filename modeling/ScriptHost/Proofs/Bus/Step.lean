import ScriptHost.Proofs.Bus.Deed

/-!
# What a step does

`Moves` says once and for all what a step of a thread can do: to the bus (`Acts`), to the emits that
the thread has under way (`Advance`) and to the cancel that it is in the middle of (`Cancels`).
`Deed.Fits` says what the thread has found when it did its deed, and `Threads.taken_iff_replies`
that an event is taken only as the reply to a call that has asked for one.
-/

set_option autoImplicit false

namespace ScriptHost.Bus

variable {α β ε : Type}

/-! ## What a deed does to the emits of its thread -/

/-- The emit that a deed is part of. -/
def Deed.emit? : Deed α → Option Nat
  | started k .. => some k
  | offered k .. => some k
  | declined k .. => some k
  | turn k .. => some k
  | returned k .. => some k
  | _ => none

/-- What a step may make of the emits that its thread has under way: a new one starts inside of the
others, the innermost one goes on, or nothing happens to them.  The flags say whether the thread has
nothing of its own to do, which is when the innermost emit goes on. -/
inductive Advance (emits : Nat) :
    Bool → List (Frame α ε) → Option (Deed α) → Bool → List (Frame α ε) → Prop
  | other {idle idle' : Bool} {stack : List (Frame α ε)} {d : Option (Deed α)}
      (hi : idle = true → stack = []) (hd : d.bind Deed.emit? = none) :
      Advance emits idle stack d idle' stack
  | started (stack : List (Frame α ε)) (topic : String) (event : α) (audience rest : List Nat)
      (next : Reply α → Reaction α ε) :
      Advance emits false stack
        (some (.started emits (stack.map (·.number)) topic event audience rest))
        true ({ number := emits, event, audience, rest, next } :: stack)
  | offered {f : Frame α ε} {outer : List (Frame α ε)} {id : Nat} {targets : List Nat}
      (lost : Option α) (ht : f.targets = id :: targets) :
      Advance emits true (f :: outer) (some (.offered f.number id f.event lost))
        true ({ f with targets, delivery := f.delivery + ⟨0, 1, lost.isSome.toNat⟩ } :: outer)
  | declined {f : Frame α ε} {outer : List (Frame α ε)} {id : Nat} {targets : List Nat}
      (ht : f.targets = id :: targets) :
      Advance emits true (f :: outer) (some (.declined f.number id f.event))
        true ({ f with targets, delivery := f.delivery + {} } :: outer)
  | called {idle' : Bool} {f : Frame α ε} {outer : List (Frame α ε)} {id : Nat} {rest : List Nat}
      (ht : f.targets = []) (hc : f.calling = none) (hr : f.rest = id :: rest) :
      Advance emits true (f :: outer) (some (.turn f.number id true))
        idle' ({ f with rest, calling := some id } :: outer)
  | passed {f : Frame α ε} {outer : List (Frame α ε)} {id : Nat} {rest : List Nat}
      (ht : f.targets = []) (hc : f.calling = none) (hr : f.rest = id :: rest) :
      Advance emits true (f :: outer) (some (.turn f.number id false))
        true ({ f with rest } :: outer)
  | left {f : Frame α ε} {outer : List (Frame α ε)} {id : Nat}
      (ht : f.targets = []) (hc : f.calling = some id) :
      Advance emits true (f :: outer) none
        true ({ f with calling := none, delivery := f.delivery + ⟨1, 0, 0⟩ } :: outer)
  | returned {idle' : Bool} {f : Frame α ε} {outer : List (Frame α ε)}
      (ht : f.targets = []) (hc : f.calling = none) (hr : f.rest = []) :
      Advance emits true (f :: outer) (some (.returned f.number f.delivery)) idle' outer

/-! ## Cancelling -/

/-- Nothing of its own is left for a thread to do. -/
def Thread.idle (t : Thread α ε) : Bool :=
  match t.control with
  | .run .done => true
  | _ => false

/-- The listener that a thread is in the middle of cancelling. -/
def Thread.cancelling? (t : Thread α ε) : Option Nat :=
  match t.control with
  | .wait (.unregister id) _ => some id
  | _ => none

/-- What a step may do to the cancel that its thread is in the middle of. -/
inductive Cancels (alive : Bool) : Option Nat → Option (Deed α) → Option Nat → Prop
  | other {d : Option (Deed α)} (hd : ∀ id, d ≠ some (.deactivated id))
      (hu : ∀ id, d ≠ some (.unregistered id)) : Cancels alive none d none
  | begins (id : Nat) : Cancels alive none (some (.deactivated id)) (some id)
  | ends (id : Nat) : Cancels alive (some id) (some (.unregistered id)) none
  | lapses (id : Nat) (h : alive = false) : Cancels alive (some id) none none

/-! ## What a step does -/

namespace Acts

variable {s s' : State α β} {d : Option (Deed α)}

/-- Inboxes and registrations never go away. -/
theorem mem_contents (h : Acts s d s') {id : Nat} (hid : id ∈ s.contents.map (·.id)) :
    id ∈ s'.contents.map (·.id) := by
  rw [h.contents]
  cases d with
  | none => exact hid
  | some d =>
    rw [Option.elim_some, List.map_append, List.map_map]
    refine List.mem_append_left _ ?_
    rwa [show (fun i : Inbox α => i.id) ∘ d.onInbox s.capacity = (·.id) from
      funext fun i => d.id_onInbox s.capacity i]

theorem mem_listing (h : Acts s d s') {id : Nat} (hid : id ∈ s.listing.map (·.id)) :
    id ∈ s'.listing.map (·.id) := by
  rw [h.listing]
  cases d with
  | none => exact hid
  | some d =>
    rw [Option.elim_some, List.map_append, List.map_map]
    refine List.mem_append_left _ ?_
    rwa [show (fun r : Registration => r.id) ∘ d.onRegistration = (·.id) from
      funext fun r => d.id_onRegistration r]

end Acts

namespace Session

/-- Names stand for listeners and inboxes that exist. -/
structure Known (s : Session α ε) : Prop where
  handles : ∀ name id, Record.get? s.handles name = some id → id ∈ s.bus.listing.map (·.id)
  subscribers :
    ∀ name id, Record.get? s.subscribers name = some id → id ∈ s.bus.contents.map (·.id)

variable {s s' : Session α ε} {d : Option (Deed α)}

theorem Known.acts (h : s.Known) (ha : Acts s.bus d s'.bus) (hh : s'.handles = s.handles)
    (hs : s'.subscribers = s.subscribers) : s'.Known where
  handles name id hn := ha.mem_listing (h.handles name id (hh ▸ hn))
  subscribers name id hn := ha.mem_contents (h.subscribers name id (hs ▸ hn))

/-- What a call makes of a session whose emits it leaves alone. -/
structure Does (s : Session α ε) (d : Option (Deed α)) (s' : Session α ε) : Prop where
  acts : Acts s.bus d s'.bus
  emits : s'.emits = s.emits
  known : s.Known → s'.Known

theorem Does.of_acts (ha : Acts s.bus d s'.bus) (he : s'.emits = s.emits)
    (hh : s'.handles = s.handles) (hs : s'.subscribers = s.subscribers) : Does s d s' :=
  ⟨ha, he, fun h => h.acts ha hh hs⟩

theorem Does.refl (s : Session α ε) : Does s none s := .of_acts (.refl _) rfl rfl rfl

theorem does_withHandle {name : String} {f : Nat → Reply α × Session α ε}
    (hf : ∀ id, Does s none (f id).2) : Does s none (s.withHandle name f).2 := by
  rw [withHandle]
  split
  · exact hf _
  · exact .refl s

/-- A call on an inbox does what it does to that inbox, if the name stands for one. -/
theorem does_withInbox {name : String} {f : Nat → Reply α × Session α ε} {g : Nat → Option (Deed α)}
    (hf : ∀ id, Record.get? s.subscribers name = some id → Does s (g id) (f id).2) :
    Does s ((Record.get? s.subscribers name).bind g) (s.withInbox name f).2 := by
  rw [withInbox]
  split
  · rename_i id hid
    rw [hid]
    exact hf id hid
  · rename_i hid
    rw [hid]
    exact .refl s

theorem does_withInbox_none {name : String} {f : Nat → Reply α × Session α ε}
    (hf : ∀ id, Record.get? s.subscribers name = some id → Does s none (f id).2) :
    Does s none (s.withInbox name f).2 := by
  have h := does_withInbox (g := fun _ => none) hf
  rwa [Option.bind_fun_none] at h

theorem does_dropSubscriber (s : Session α ε) (name : String) :
    Does s none (s.dropSubscriber name) := by
  rw [dropSubscriber]
  split
  · rename_i id _
    refine ⟨.disown s.bus id, rfl, fun h => ?_⟩
    have ha := Acts.disown s.bus id
    refine ⟨fun n i hn => ha.mem_listing (h.handles n i hn), fun n i hn => ?_⟩
    rw [Record.get?_erase] at hn
    split at hn
    · cases hn
    · exact ha.mem_contents (h.subscribers n i hn)
  · exact .refl s

theorem does_on (s : Session α ε) (name topic : String) (callback : Callback α ε) :
    Does s (some (.registered s.bus.nextId topic)) (s.perform (.on name topic callback)).2 := by
  have ha := Acts.on s.bus topic callback
  refine ⟨ha, rfl,
    fun h => ⟨fun n i hn => ?_, fun n i hn => ha.mem_contents (h.subscribers n i hn)⟩⟩
  simp only [perform, Record.get?_insert] at hn
  split at hn
  · cases hn
    rw [perform, ha.listing]
    simp [Deed.newRegistrations, State.on]
  · exact ha.mem_listing (h.handles n i hn)

theorem does_subscribe (s : Session α ε) (name : String) (topics : List String) :
    Does s
      (some (.subscribed s.bus.nextId (Record.names (Record.ofList (topics.map fun t => (t, ()))))))
      (s.perform (.subscribe name topics)).2 := by
  have hd := s.does_dropSubscriber name
  have ha := Acts.subscribe (s.dropSubscriber name).bus topics
  have hnext : (s.dropSubscriber name).bus.nextId = s.bus.nextId := hd.acts.nextId
  refine ⟨?_, hd.emits, fun h => ⟨fun n i hn => ?_, fun n i hn => ?_⟩⟩
  · rw [← hnext]
    exact hd.acts.of_none ha
  · exact ha.mem_listing ((hd.known h).handles n i hn)
  · simp only [perform, Record.get?_insert] at hn
    split at hn
    · cases hn
      rw [perform, ha.contents]
      simp [Deed.newInboxes, State.subscribe]
    · exact ha.mem_contents ((hd.known h).subscribers n i hn)

theorem does_share (s : Session α ε) {name other : String} {id : Nat}
    (hid : Record.get? s.subscribers name = some id) :
    Does s none { ({ s with bus := s.bus.own id } : Session α ε).dropSubscriber other with
      subscribers := Record.insert other id
        (({ s with bus := s.bus.own id } : Session α ε).dropSubscriber other).subscribers } := by
  have ho : Does s none { s with bus := s.bus.own id } := .of_acts (.own s.bus id) rfl rfl rfl
  have hd := does_dropSubscriber ({ s with bus := s.bus.own id } : Session α ε) other
  refine ⟨ho.acts.of_none hd.acts, hd.emits, fun h => ⟨fun n i hn => ?_, fun n i hn => ?_⟩⟩
  · exact (hd.known (ho.known h)).handles n i hn
  · rw [Record.get?_insert] at hn
    split at hn
    · cases hn
      exact hd.acts.mem_contents ((ho.known h).subscribers name id hid)
    · exact (hd.known (ho.known h)).subscribers n i hn

/-- The calls that return at once, an emit apart, do their deed and nothing else. -/
theorem does_perform (s : Session α ε) (stack : List (Frame α ε)) {c : Call α ε}
    (hc : ∀ topic event, c ≠ .emit topic event) (hr : s.request? c = none) :
    Does s (s.deed? stack c) (s.perform c).2 := by
  cases c with
  | on name topic callback => exact s.does_on name topic callback
  | cancel name =>
    have hn : Record.get? s.handles name = none := Option.map_eq_none_iff.1 hr
    rw [deed?, hn]
    exact .refl s
  | isCancelled name => exact does_withHandle fun _ => .refl s
  | topicOf name => exact does_withHandle fun _ => .refl s
  | dropHandle name =>
    refine ⟨.refl s.bus, rfl, fun h => ⟨fun n i hn => ?_, h.subscribers⟩⟩
    simp only [perform, Record.get?_erase] at hn
    split at hn
    · cases hn
    · exact h.handles n i hn
  | emit topic event => exact absurd rfl (hc topic event)
  | subscribe name topics => exact s.does_subscribe name topics
  | share name other => exact does_withInbox_none fun id hid => s.does_share hid
  | next name timeout cancelled => exact .refl s
  | tryNext name => exact does_withInbox fun id _ => .of_acts (.take s.bus id) rfl rfl rfl
  | close name =>
    rw [deed?, Option.map_eq_bind]
    exact does_withInbox fun id _ => .of_acts (.close s.bus id) rfl rfl rfl
  | inboxInfo name => exact does_withInbox_none fun _ _ => .refl s
  | dropSubscriber name => exact s.does_dropSubscriber name
  | listenerCount topic => exact .refl s
  | subscriberCount => exact .refl s
  | capacity => exact .refl s
  | dropBus => exact .of_acts (.dropBus s.bus) rfl rfl rfl
  | nextLater task name timeout =>
    exact does_withInbox_none fun id _ => .of_acts (.own s.bus id) rfl rfl rfl
  | join task => exact .refl s

end Session

/-- A deed that concerns neither an emit nor a cancel. -/
def Deed.isPlain : Deed α → Bool
  | registered .. | subscribed .. | taken .. | closed .. => true
  | _ => false

/-- Whether a deed starts an emit. -/
def Deed.isStart : Deed α → Bool
  | started .. => true
  | _ => false

/-- All that the laws of a bus need to know of a step of a thread. -/
structure Moves (s : Session α ε) (t : Thread α ε) (d : Option (Deed α)) (t' : Thread α ε)
    (s' : Session α ε) : Prop where
  acts : Acts s.bus d s'.bus
  emits : s'.emits = s.emits + (d.any Deed.isStart).toNat
  advance : Advance s.emits t.idle t.stack d t'.idle t'.stack
  cancels : Cancels s.bus.alive t.cancelling? d t'.cancelling?
  known : s.Known → s'.Known

theorem Deed.of_isPlain {d : Deed α} (h : d.isPlain = true) :
    d.emit? = none ∧ d.isStart = false := by
  cases d <;> simp_all [isPlain, emit?, isStart]

/-- A deed of an emit is no deed of a cancel. -/
theorem Cancels.of_emit {alive : Bool} {d : Deed α} {k : Nat} (h : d.emit? = some k) :
    Cancels alive none (some d) none := by
  refine .other (fun id => ?_) (fun id => ?_) <;> rintro ⟨⟩ <;> cases h

namespace Moves

variable {s s' : Session α ε} {t t' : Thread α ε} {d : Option (Deed α)}

theorem of_plain (h : s.Does d s') (hd : ∀ deed ∈ d, deed.isPlain = true)
    (hi : t.idle = false) (hs : t'.stack = t.stack) (hc : t.cancelling? = none)
    (hc' : t'.cancelling? = none) : Moves s t d t' s' where
  acts := h.acts
  emits := by
    rw [h.emits]
    cases d with
    | none => rfl
    | some deed => simp [(Deed.of_isPlain (hd deed rfl)).2]
  advance := by
    rw [hs, hi]
    cases d with
    | none => exact .other nofun rfl
    | some deed => exact .other nofun (Deed.of_isPlain (hd deed rfl)).1
  cancels := by
    rw [hc, hc']
    refine .other (fun id => ?_) (fun id => ?_) <;> rintro rfl <;> cases hd _ rfl
  known := h.known

theorem of_none (h : s.Does none s') (hi : t.idle = false) (hs : t'.stack = t.stack)
    (hc : t.cancelling? = none) (hc' : t'.cancelling? = none) : Moves s t none t' s' :=
  of_plain h (fun _ hd => by cases hd) hi hs hc hc'

/-- A deed of an emit that has started before. -/
theorem of_emit {deed : Deed α} {k : Nat} (ha : Acts s.bus (some deed) s'.bus)
    (he : s'.emits = s.emits) (hh : s'.handles = s.handles)
    (hs : s'.subscribers = s.subscribers) (hk : deed.emit? = some k) (hn : deed.isStart = false)
    (hadv : Advance s.emits t.idle t.stack (some deed) t'.idle t'.stack) (hc : t.cancelling? = none)
    (hc' : t'.cancelling? = none) : Moves s t (some deed) t' s' where
  acts := ha
  emits := by simp [he, hn]
  advance := hadv
  cancels := by
    rw [hc, hc']
    exact .of_emit hk
  known h := h.acts ha hh hs

section Resume

variable (s : Session α ε) (thread : Nat) {f : Frame α ε} (outer : List (Frame α ε))

/-- The emit serves its next inbox. -/
theorem resume_target {id : Nat} {targets : List Nat} (ht : f.targets = id :: targets) :
    Moves s { stack := f :: outer } (f.deed? s.bus) (s.resume thread f outer).1
      (s.resume thread f outer).2 := by
  have hdeclined (hreceipt : (s.bus.offer id f.event).1 = {}) :
      Moves s { stack := f :: outer } (some (.declined f.number id f.event))
        (s.resume thread f outer).1 (s.resume thread f outer).2 := by
    simp only [Session.resume, ht, hreceipt]
    exact of_emit (.declined s.bus f.number id f.event) rfl rfl rfl rfl rfl (.declined ht) rfl rfl
  cases hi : s.bus.inbox? id with
  | none =>
    simp only [Frame.deed?, ht, hi]
    exact hdeclined (by simp [State.offer, hi])
  | some i =>
    by_cases hclosed : i.closed = true
    · simp only [Frame.deed?, ht, hi, hclosed, if_true]
      exact hdeclined (by simp [State.offer, hi, Inbox.receipt, Inbox.losesOn, hclosed])
    · have hreceipt : (s.bus.offer id f.event).1 =
          ⟨0, 1, (i.lost? s.bus.capacity).isSome.toNat⟩ := by
        simp [State.offer, hi, Inbox.receipt, hclosed, s.bus.isSome_lost? i]
      simp only [Frame.deed?, Session.resume, ht, hi, hreceipt, hclosed]
      exact of_emit (.offered s.bus f.number id f.event _) rfl rfl rfl rfl rfl (.offered _ ht)
        rfl rfl

/-- The emit gives the next listener its turn. -/
theorem resume_turn {id : Nat} {rest : List Nat} (ht : f.targets = []) (hc : f.calling = none)
    (hr : f.rest = id :: rest) :
    Moves s { stack := f :: outer } (f.deed? s.bus) (s.resume thread f outer).1
      (s.resume thread f outer).2 := by
  have hpassed : Moves s { stack := f :: outer } (some (.turn f.number id false))
      { stack := { f with rest } :: outer } s :=
    of_emit (.of_emit (.refl s.bus) rfl rfl rfl rfl) rfl rfl rfl rfl rfl (.passed ht hc hr) rfl rfl
  have hcalled (r : Reaction α ε) : Moves s { stack := f :: outer } (some (.turn f.number id true))
      { control := .run r, stack := { f with rest, calling := some id } :: outer }
      { s with bus := s.bus.enter thread id } :=
    of_emit (.of_emit (.enter s.bus thread id) rfl rfl rfl rfl) rfl rfl rfl rfl rfl
      (.called ht hc hr) rfl rfl
  obtain ⟨number, event, audience, targets, listeners, calling, delivery, next⟩ := f
  cases ht
  cases hc
  cases hr
  cases hl : s.bus.listener? id with
  | none =>
    simp only [Frame.deed?, Session.resume, hl, Option.any_none]
    exact hpassed
  | some l =>
    cases hactive : l.active with
    | false =>
      simp only [Frame.deed?, Session.resume, hl, Option.any_some, hactive]
      exact hpassed
    | true =>
      simp only [Frame.deed?, Session.resume, hl, Option.any_some, hactive, if_true]
      exact hcalled _

/-- The innermost emit goes on. -/
theorem resume (f : Frame α ε) :
    Moves s { stack := f :: outer } (f.deed? s.bus) (s.resume thread f outer).1
      (s.resume thread f outer).2 := by
  cases ht : f.targets with
  | cons id targets => exact resume_target s thread outer ht
  | nil =>
    cases hc : f.calling with
    | some id =>
      have ha := Acts.leave s.bus thread id
      have hmoves : Moves s { stack := f :: outer } none
          { stack := { f with calling := none, delivery := f.delivery + ⟨1, 0, 0⟩ } :: outer }
          { s with bus := s.bus.leave thread id } :=
        { acts := ha
          emits := rfl
          advance := .left ht hc
          cancels := .other nofun nofun
          known := fun h => h.acts ha rfl rfl }
      obtain ⟨number, event, audience, targets, listeners, calling, delivery, next⟩ := f
      cases ht
      cases hc
      exact hmoves
    | none =>
      cases hr : f.rest with
      | cons id rest => exact resume_turn s thread outer ht hc hr
      | nil =>
        simp only [Frame.deed?, Session.resume, ht, hc, hr]
        exact of_emit (.of_emit (.foldl .disown f.audience s.bus) rfl rfl rfl rfl) rfl rfl rfl rfl
          rfl (.returned ht hc hr) rfl rfl

end Resume

theorem emit (s : Session α ε) (t : Thread α ε) (topic : String) (event : α)
    (next : Reply α → Reaction α ε) (hi : t.idle = false) (hc : t.cancelling? = none) :
    Moves s t (s.deed? t.stack (.emit topic event))
      { stack := (s.startEmit topic event next).1 :: t.stack }
      (s.startEmit topic event next).2 := by
  have ha : Acts s.bus none ((s.bus.audience topic).foldl State.own s.bus) :=
    .foldl .own (s.bus.audience topic) s.bus
  exact {
    acts := ha.of_emit rfl rfl rfl rfl
    emits := rfl
    advance := by
      rw [hi]
      exact .started t.stack topic event _ _ next
    cancels := by
      rw [hc]
      exact .of_emit rfl
    known := fun h => h.acts ha rfl rfl }

/-- The first step of a call that may have to wait. -/
theorem request {c : Call α ε} {next : Reply α → Reaction α ε} {q : Request}
    (h : s.request? c = some (q, s')) (stack : List (Frame α ε)) :
    Moves s { control := .run (.call c next), stack } (s.deed? stack c)
      { control := .wait q next, stack } s' := by
  cases c with
  | next name timeout cancelled =>
    obtain ⟨id, -, he⟩ := Option.map_eq_some_iff.1 h
    cases he
    exact of_none (.refl s) rfl rfl rfl rfl
  | cancel name =>
    obtain ⟨id, hid, he⟩ := Option.map_eq_some_iff.1 h
    cases he
    simp only [Session.deed?, hid, Option.map_some]
    have ha := Acts.deactivate s.bus id
    exact {
      acts := ha
      emits := rfl
      advance := .other nofun rfl
      cancels := .begins id
      known := fun h => h.acts ha rfl rfl }
  | join task =>
    cases h
    exact of_none (.refl s) rfl rfl rfl rfl
  | _ => cases h

/-- A call that returns at once. -/
theorem perform {c : Call α ε} {next : Reply α → Reaction α ε}
    (hc : ∀ topic event, c ≠ .emit topic event) (hr : s.request? c = none)
    (stack : List (Frame α ε)) :
    Moves s { control := .run (.call c next), stack } (s.deed? stack c)
      { control := .run (next (s.perform c).1), stack } (s.perform c).2 := by
  refine of_plain (s.does_perform stack hc hr) (fun d hd => ?_) rfl rfl rfl rfl
  cases c with
  | emit topic event => exact absurd rfl (hc topic event)
  | cancel name =>
    rw [Session.deed?,
      show Record.get? s.handles name = none from Option.map_eq_none_iff.1 hr] at hd
    cases hd
  | tryNext name =>
    obtain ⟨id, -, he⟩ := Option.bind_eq_some_iff.1 hd
    obtain ⟨event, -, rfl⟩ := Option.map_eq_some_iff.1 he
    rfl
  | close name =>
    obtain ⟨id, -, rfl⟩ := Option.map_eq_some_iff.1 hd
    rfl
  | on | subscribe =>
    cases hd
    rfl
  | _ => cases hd

/-- The last step of a call that may have had to wait. -/
theorem reply {thread : Nat} {q : Request} {next : Reply α → Reaction α ε} {r : Reply α}
    (h : s.reply? thread q = some (r, s')) (stack : List (Frame α ε)) :
    Moves s { control := .wait q next, stack } (s.waitDeed? thread q)
      { control := .run (next r), stack } s' := by
  unfold Session.waitDeed?
  rw [h]
  cases q with
  | take id deadline =>
    simp only [Session.reply?] at h
    split at h
    · cases h
      refine of_plain (.of_acts (.take s.bus id) rfl rfl rfl) (fun d hd => ?_) rfl rfl rfl rfl
      obtain ⟨event, -, rfl⟩ := Option.map_eq_some_iff.1 hd
      rfl
    · split at h
      · cases h
        exact of_none (.refl s) rfl rfl rfl rfl
      · cases h
  | unregister id =>
    simp only [Session.reply?] at h
    split at h
    · cases h
    · cases h
      -- a bus that is gone keeps its registrations, and a listener is not taken out of them
      cases halive : s.bus.alive with
      | true =>
        have ha := Acts.unregister halive id
        exact {
          acts := ha
          emits := rfl
          advance := .other nofun rfl
          cancels := .ends id
          known := fun h => h.acts ha rfl rfl }
      | false =>
        have ha := Acts.unregister_of_dropped halive id
        exact {
          acts := ha
          emits := rfl
          advance := .other nofun rfl
          cancels := .lapses id halive
          known := fun h => h.acts ha rfl rfl }
  | join task =>
    simp only [Session.reply?] at h
    split at h
    · cases h
      exact of_none (.refl s) rfl rfl rfl rfl
    · obtain ⟨event, -, he⟩ := Option.map_eq_some_iff.1 h
      cases he
      exact of_none (.of_acts (.refl s.bus) rfl rfl rfl) rfl rfl rfl rfl

end Moves

/-- **What a step of a thread does.** -/
theorem Session.moves_of_step {s s' : Session α ε} {thread : Nat} {t t' : Thread α ε}
    (h : s.step thread t = some (t', s')) : Moves s t (s.threadDeed? thread t) t' s' := by
  obtain ⟨control, stack⟩ := t
  cases control with
  | wait q next =>
    obtain ⟨⟨r, s₁⟩, hr, he⟩ := Option.map_eq_some_iff.1 h
    cases he
    exact .reply hr stack
  | run r =>
    cases r with
    | done =>
      cases stack with
      | nil => cases h
      | cons f outer =>
        have hmoves := Moves.resume s thread outer f
        rwa [Option.some_inj.1 h] at hmoves
    | note entry next =>
      cases h
      exact .of_none (.of_acts (.refl s.bus) rfl rfl rfl) rfl rfl rfl rfl
    | call c next =>
      by_cases hemit : ∃ topic event, c = .emit topic event
      · obtain ⟨topic, event, rfl⟩ := hemit
        cases h
        exact .emit s _ topic event next rfl rfl
      · have hc : ∀ topic event, c ≠ .emit topic event :=
          fun topic event he => hemit ⟨topic, event, he⟩
        cases hr : s.request? c with
        | some p =>
          have hstep : s.step thread ⟨.run (.call c next), stack⟩ =
              some (⟨.wait p.1 next, stack⟩, p.2) := by
            cases c <;> first | exact absurd rfl (hc _ _) | simp only [Session.step, hr]
          cases hstep.symm.trans h
          exact .request hr stack
        | none =>
          have hstep : s.step thread ⟨.run (.call c next), stack⟩ =
              some (⟨.run (next (s.perform c).1), stack⟩, (s.perform c).2) := by
            cases c <;> first | exact absurd rfl (hc _ _) | simp only [Session.step, hr]
          cases hstep.symm.trans h
          exact .perform hc hr stack

namespace Threads

/-- All that the laws of a bus need to know of a step: one thread moves, or none does. -/
structure Moves (w : Threads α ε) (d : Option (Deed α)) (w' : Threads α ε) : Prop where
  acts : Acts w.session.bus d w'.session.bus
  emits : w'.session.emits = w.session.emits + (d.any Deed.isStart).toNat
  known : w.session.Known → w'.session.Known
  threads :
    (w'.threads = w.threads ∧ ∀ deed ∈ d, deed.isPlain = true) ∨
    ∃ l₁ l₂ t t', w.threads = l₁ ++ t :: l₂ ∧ w'.threads = l₁ ++ t' :: l₂ ∧
      Advance w.session.emits t.idle t.stack d t'.idle t'.stack ∧
      Cancels w.session.bus.alive t.cancelling? d t'.cancelling?

/-- One of several threads goes on. -/
theorem set_thread {threads : List (Thread α ε)} {i : Nat} {t : Thread α ε}
    (h : threads[i]? = some t) (t' : Thread α ε) :
    ∃ l₁ l₂, threads = l₁ ++ t :: l₂ ∧ threads.set i t' = l₁ ++ t' :: l₂ := by
  obtain ⟨hi, rfl⟩ := List.getElem?_eq_some_iff.1 h
  refine ⟨threads.take i, threads.drop (i + 1), ?_, ?_⟩
  · rw [List.getElem_cons_drop, List.take_append_drop]
  · rw [List.set_eq_take_append_cons_drop, if_pos hi]

/-- **What a step does.** -/
theorem moves_of_step {w w' : Threads α ε} {label : Label α ε} (h : w.step label = some w') :
    w.Moves (w.deed? label) w' := by
  cases label with
  | begin i program =>
    simp only [step] at h
    split at h
    · rename_i ht
      cases h
      obtain ⟨l₁, l₂, hold, hnew⟩ := set_thread ht { control := .run program }
      exact ⟨.refl _, rfl, id,
        .inr ⟨l₁, l₂, _, _, hold, hnew, .other (fun _ => rfl) rfl, .other nofun nofun⟩⟩
    · cases h
  | step i =>
    simp only [step] at h
    split at h
    · rename_i t ht
      obtain ⟨⟨t', s'⟩, hstep, he⟩ := Option.map_eq_some_iff.1 h
      cases he
      have hm := Session.moves_of_step hstep
      simp only [deed?, ht, Option.bind_some]
      obtain ⟨l₁, l₂, hold, hnew⟩ := set_thread ht t'
      exact ⟨hm.acts, hm.emits, hm.known,
        .inr ⟨l₁, l₂, t, t', hold, hnew, hm.advance, hm.cancels⟩⟩
    · cases h
  | answer task =>
    obtain ⟨s', hs, he⟩ := Option.map_eq_some_iff.1 h
    cases he
    simp only [Session.answer?] at hs
    split at hs
    · cases hs
    · rename_i waiter hwaiter
      split at hs
      · cases hs
        simp only [deed?, hwaiter, Option.bind_some]
        -- no thread moves: somebody in the background takes an event
        have ha := (Acts.take w.session.bus waiter.inbox).then_none (.disown _ waiter.inbox)
        have hplain : ∀ deed ∈ (w.session.bus.take waiter.inbox).1.map (Deed.taken waiter.inbox),
            deed.isPlain = true := by
          intro deed hdeed
          obtain ⟨event, -, rfl⟩ := Option.map_eq_some_iff.1 hdeed
          rfl
        have hstart : ((w.session.bus.take waiter.inbox).1.map (Deed.taken waiter.inbox)).any
            Deed.isStart = false := by
          cases (w.session.bus.take waiter.inbox).1 <;> rfl
        exact ⟨ha, by rw [hstart]; rfl, fun hk => hk.acts ha rfl rfl, .inl ⟨rfl, hplain⟩⟩
      · cases hs
  | pass ms =>
    cases h
    exact ⟨.refl _, rfl, fun hk => hk.acts (.refl _) rfl rfl, .inl ⟨rfl, nofun⟩⟩

end Threads

/-! ## What a thread finds when it does a deed -/

/-- The state fits the deed. -/
def Deed.Fits (s : Session α ε) : Deed α → Prop
  | registered id _ => id = s.bus.nextId
  | deactivated id => ∃ name, Record.get? s.handles name = some id
  | unregistered _ => s.bus.alive = true
  | subscribed id _ => id = s.bus.nextId
  | started k _ topic _ audience listeners =>
    k = s.emits ∧ audience = s.bus.audience topic ∧
      listeners = (s.bus.registeredOn topic).map (·.id)
  | offered _ id _ lost => ∃ i, s.bus.inbox? id = some i ∧ i.closed = false ∧
      lost = i.lost? s.bus.capacity
  | declined _ id _ => ∀ i, s.bus.inbox? id = some i → i.closed = true
  | turn _ id called => called = (s.bus.listener? id).any (·.active)
  | taken id event => ∃ i, s.bus.inbox? id = some i ∧ i.events.head? = some event
  | closed id => ∃ name, Record.get? s.subscribers name = some id
  | returned .. => True

theorem State.fits_take {s : Session α ε} {id : Nat} {d : Deed α}
    (h : d ∈ (s.bus.take id).1.map (Deed.taken id)) : d.Fits s := by
  obtain ⟨event, he, rfl⟩ := Option.map_eq_some_iff.1 h
  simp only [State.take] at he
  split at he
  · cases he
  · rename_i event' hevent
    cases he
    exact Option.bind_eq_some_iff.1 hevent

theorem Frame.fits_of_deed? {s : Session α ε} {f : Frame α ε} {d : Deed α}
    (h : d ∈ f.deed? s.bus) : d.Fits s := by
  simp only [deed?] at h
  split at h
  · split at h
    · rename_i i hi
      split at h
      · rename_i hclosed
        cases h
        intro i' hi'
        cases hi.symm.trans hi'
        exact hclosed
      · rename_i hopen
        cases h
        exact ⟨i, hi, eq_false_of_ne_true hopen, rfl⟩
    · rename_i hnone
      cases h
      intro i' hi'
      cases hnone.symm.trans hi'
  · cases h
  · cases h
    rfl
  · cases h
    trivial

theorem Session.fits_of_deed? {s : Session α ε} {stack : List (Frame α ε)} {c : Call α ε}
    {d : Deed α} (h : d ∈ s.deed? stack c) : d.Fits s := by
  cases c with
  | emit topic event =>
    cases h
    exact ⟨rfl, rfl, rfl⟩
  | on name topic callback =>
    cases h
    rfl
  | cancel name =>
    obtain ⟨id, hid, rfl⟩ := Option.map_eq_some_iff.1 h
    exact ⟨name, hid⟩
  | subscribe name topics =>
    cases h
    rfl
  | tryNext name =>
    obtain ⟨id, -, hd⟩ := Option.bind_eq_some_iff.1 h
    exact State.fits_take hd
  | close name =>
    obtain ⟨id, hid, rfl⟩ := Option.map_eq_some_iff.1 h
    exact ⟨name, hid⟩
  | _ => cases h

theorem Session.fits_of_waitDeed? {s : Session α ε} {thread : Nat} {q : Request} {d : Deed α}
    (h : d ∈ s.waitDeed? thread q) : d.Fits s := by
  unfold waitDeed? at h
  cases hr : s.reply? thread q with
  | none =>
    rw [hr] at h
    cases q <;> cases h
  | some p =>
    obtain ⟨r, s'⟩ := p
    rw [hr] at h
    cases q with
    | take id deadline =>
      simp only [reply?] at hr
      split at hr
      · cases hr
        exact State.fits_take h
      · split at hr <;> cases hr
        cases h
    | unregister id =>
      simp only at h
      split at h
      · rename_i halive
        cases h
        exact halive
      · cases h
    | join task => cases h

theorem Threads.fits_of_deed? {w : Threads α ε} {label : Label α ε} {d : Deed α}
    (h : d ∈ w.deed? label) : d.Fits w.session := by
  cases label with
  | begin i program => cases h
  | step i =>
    obtain ⟨⟨control, stack⟩, -, hd⟩ := Option.bind_eq_some_iff.1 h
    cases control with
    | wait q next => exact Session.fits_of_waitDeed? hd
    | run r =>
      cases r with
      | done =>
        cases stack with
        | nil => cases hd
        | cons f outer => exact Frame.fits_of_deed? hd
      | note entry next => cases hd
      | call c next => exact Session.fits_of_deed? hd
  | answer task =>
    obtain ⟨waiter, -, hd⟩ := Option.bind_eq_some_iff.1 h
    exact State.fits_take hd
  | pass ms => cases h

/-! ## What a caller is told who asks for an event -/

namespace Threads

/-- At a step a call that has asked for an event of an inbox gets its reply: an event, or that there
is none. -/
inductive Replies (w : Threads α ε) : Label α ε → Nat → Option α → Threads α ε → Prop
  /-- A call that does not wait. -/
  | tryNext {i id : Nat} {t : Thread α ε} {name : String} {next : Reply α → Reaction α ε}
      {event : Option α} {s : Session α ε} : w.threads[i]? = some t →
      t.control = .run (.call (.tryNext name) next) →
      Record.get? w.session.subscribers name = some id →
      w.session.perform (.tryNext name) = (.event event, s) →
      Replies w (.step i) id event
        { session := s,
          threads := w.threads.set i { t with control := .run (next (.event event)) } }
  /-- A call that has waited. -/
  | next {i id : Nat} {t : Thread α ε} {d : Deadline} {next : Reply α → Reaction α ε}
      {event : Option α} {s : Session α ε} : w.threads[i]? = some t →
      t.control = .wait (.take id d) next →
      w.session.reply? i (.take id d) = some (.event event, s) →
      Replies w (.step i) id event
        { session := s,
          threads := w.threads.set i { t with control := .run (next (.event event)) } }
  /-- A call that has waited in the background: whoever joins it is told the same. -/
  | later {task : String} {waiter : Waiter α} {event : Option α} {s : Session α ε} :
      Record.get? w.session.waiters task = some waiter → w.session.answer? task = some s →
      (∀ thread, s.reply? thread (.join task) =
        some (.event event, { s with waiters := Record.erase task s.waiters })) →
      Replies w (.answer task) waiter.inbox event { w with session := s }

variable {w w' : Threads α ε} {label : Label α ε} {id : Nat} {event : α}

/-- What is told to a call that has waited is what is taken from the inbox. -/
theorem waitDeed?_of_reply? {s s' : Session α ε} {i : Nat} {d : Deadline} {event : Option α}
    (h : s.reply? i (.take id d) = some (.event event, s')) :
    s.waitDeed? i (.take id d) = event.map (.taken id) := by
  simp only [Session.waitDeed?, h]

/-- Only a call that has asked for an event is told of one. -/
theorem reply?_of_waitDeed? {s : Session α ε} {i : Nat} {q : Request}
    (h : s.waitDeed? i q = some (.taken id event)) :
    ∃ d s', q = .take id d ∧ s.reply? i q = some (.event (some event), s') := by
  unfold Session.waitDeed? at h
  split at h
  · rename_i d event' s' hreply
    obtain ⟨event, rfl, heq⟩ := Option.map_eq_some_iff.1 h
    cases heq
    exact ⟨d, s', rfl, hreply⟩
  · split at h <;> cases h
  · cases h

/-- An emit that goes on takes nothing out of an inbox. -/
theorem frame_deed?_ne_taken {f : Frame α ε} {s : State α (Callback α ε)} :
    f.deed? s ≠ some (.taken id event) := by
  unfold Frame.deed?
  split
  · split
    · split <;> nofun
    · nofun
  · nofun
  · nofun
  · nofun

/-- Of the calls that return at once only one takes an event. -/
theorem subscriber_of_taken {s : Session α ε} {stack : List (Frame α ε)} {c : Call α ε}
    (h : s.deed? stack c = some (.taken id event)) :
    ∃ name, c = .tryNext name ∧ Record.get? s.subscribers name = some id ∧
      (s.bus.take id).1 = some event := by
  cases c with
  | tryNext name =>
    obtain ⟨id', hid, hevent⟩ := Option.bind_eq_some_iff.1 h
    obtain ⟨event', hevent, heq⟩ := Option.map_eq_some_iff.1 hevent
    cases heq
    exact ⟨name, rfl, hid, hevent⟩
  | cancel name | close name =>
    obtain ⟨number, -, heq⟩ := Option.map_eq_some_iff.1 h
    cases heq
  | _ => cases h

theorem taken_of_replies {event : Option α} (h : w.Replies label id event w') :
    w.deed? label = event.map (.taken id) := by
  cases h with
  | tryNext ht hcontrol hid hreply =>
    have hevent : (w.session.bus.take id).1 = event := by
      rw [Session.perform, Session.withInbox, hid] at hreply
      exact Reply.event.inj (congrArg Prod.fst hreply)
    rw [deed?, ht, Option.bind_some, Session.threadDeed?, hcontrol]
    rw [← hevent]
    exact congrArg (Option.bind · _) hid
  | next ht hcontrol hreply =>
    rw [deed?, ht, Option.bind_some, Session.threadDeed?, hcontrol]
    exact waitDeed?_of_reply? hreply
  | @later task waiter _ s hwaiter hanswer hjoin =>
    have hevent : (w.session.bus.take waiter.inbox).1 = event := by
      rw [Session.answer?, hwaiter] at hanswer
      dsimp only at hanswer
      split at hanswer
      · cases hanswer
        have hreply := hjoin 0
        rw [Session.reply?, Record.get?_insert, if_pos rfl] at hreply
        exact Reply.event.inj (congrArg Prod.fst (Option.some.inj hreply))
      · cases hanswer
    rw [deed?, hwaiter, Option.bind_some, hevent]

theorem replies_of_taken (h : w.step label = some w')
    (hd : w.deed? label = some (.taken id event)) :
    w.Replies label id (some event) w' := by
  cases label with
  | begin i program => cases hd
  | pass ms => cases hd
  | step i =>
    obtain ⟨⟨control, stack⟩, ht, hd⟩ := Option.bind_eq_some_iff.1 hd
    simp only [step, ht] at h
    obtain ⟨⟨t', s'⟩, hstep, rfl⟩ := Option.map_eq_some_iff.1 h
    cases control with
    | wait q next =>
      obtain ⟨d, s, rfl, hreply⟩ := reply?_of_waitDeed? hd
      simp only [Session.step, hreply] at hstep
      cases hstep
      exact .next ht rfl hreply
    | run r =>
      cases r with
      | done =>
        cases stack with
        | nil => cases hd
        | cons f outer => exact absurd hd frame_deed?_ne_taken
      | note entry next => cases hd
      | call c next =>
        obtain ⟨name, rfl, hid, hevent⟩ := subscriber_of_taken hd
        have hreply : w.session.perform (.tryNext name) =
            (.event (some event), { w.session with bus := (w.session.bus.take id).2 }) := by
          simp only [Session.perform, Session.withInbox, hid, hevent]
        simp only [Session.step, Session.request?, hreply] at hstep
        cases hstep
        exact .tryNext ht rfl hid hreply
  | answer task =>
    obtain ⟨waiter, hwaiter, hd⟩ := Option.bind_eq_some_iff.1 hd
    obtain ⟨event', hevent, heq⟩ := Option.map_eq_some_iff.1 hd
    cases heq
    obtain ⟨s', hanswer, rfl⟩ := Option.map_eq_some_iff.1 h
    refine .later hwaiter hanswer fun thread => ?_
    rw [Session.answer?, hwaiter] at hanswer
    dsimp only at hanswer
    split at hanswer
    · cases hanswer
      simp only [Session.reply?, Record.get?_insert, if_pos, hevent, Option.map_some]
    · cases hanswer

/-- **An event is taken if and only if it is the reply to a call that has asked for one**, whether
the call does not wait for it, has waited, or has waited in the background. -/
theorem taken_iff_replies (h : w.step label = some w') :
    w.deed? label = some (.taken id event) ↔ w.Replies label id (some event) w' :=
  ⟨replies_of_taken h, taken_of_replies⟩

end Threads

end ScriptHost.Bus
