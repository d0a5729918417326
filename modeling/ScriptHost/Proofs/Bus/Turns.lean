import ScriptHost.Proofs.Bus.Emission
import Mathlib.Data.List.Induction

/-!
# Who is called

An emit calls the listeners that were registered on its topic when it started and that have not been
cancelled when their turn comes.  Which these are follows from the history alone: `Run.listing` says
so of the registrations that a bus keeps, and `Run.cancelling` of the cancels that have begun and
not ended yet.

* `calls_of_run` — what every emit of a run calls, and how many listeners a topic has.
-/

set_option autoImplicit false

namespace ScriptHost.Bus

variable {α ε : Type}

/-! ## Registrations and cancels in a history -/

/-- The listener that a deed registers, with its topic. -/
def Deed.registered? : Deed α → Option (Nat × String)
  | registered id topic => some (id, topic)
  | _ => none

/-- The listener that a deed switches off. -/
def Deed.deactivated? : Deed α → Option Nat
  | deactivated id => some id
  | _ => none

/-- The listener that a deed takes out of the registrations. -/
def Deed.unregistered? : Deed α → Option Nat
  | unregistered id => some id
  | _ => none

/-- The listener that a deed calls. -/
def Deed.call? : Deed α → Option Nat
  | turn _ id true => some id
  | _ => none

/-- The listeners that have been registered, with their topics. -/
def registrations (h : History α) : List (Nat × String) := h.filterMap Deed.registered?

/-- The listeners that cancels have switched off. -/
def cancelled (h : History α) : List Nat := h.filterMap Deed.deactivated?

/-- The listeners that cancels have taken out of the registrations. -/
def removed (h : History α) : List Nat := h.filterMap Deed.unregistered?

/-- The listeners that have been called, in order. -/
def calls (h : History α) : List Nat := h.filterMap Deed.call?

/-- The listeners that have been registered on a topic. -/
def registeredOn (topic : String) (h : History α) : List Nat :=
  ((registrations h).filter (·.2 = topic)).map (·.1)

/-- The listeners that are registered on a topic, in the order in which they came. -/
def enrolled (topic : String) (h : History α) : List Nat :=
  (registeredOn topic h).filter (· ∉ removed h)

/-- The registrations as they stand after a history. -/
def listingOf (h : History α) : List Registration :=
  (registrations h).map fun p =>
    { id := p.1, topic := p.2, active := p.1 ∉ cancelled h, registered := p.1 ∉ removed h }

theorem registrations_concat (h : History α) (d : Deed α) :
    registrations (h ++ [d]) = registrations h ++ d.registered?.toList := filterMap_concat ..

theorem cancelled_concat (h : History α) (d : Deed α) :
    cancelled (h ++ [d]) = cancelled h ++ d.deactivated?.toList := filterMap_concat ..

theorem removed_concat (h : History α) (d : Deed α) :
    removed (h ++ [d]) = removed h ++ d.unregistered?.toList := filterMap_concat ..

/-- What only one deed leaves in a history. -/
theorem mem_filterMap_iff {κ : Type} {f : Deed α → Option κ} {x : κ} {d : Deed α}
    (hf : ∀ d', f d' = some x ↔ d' = d) {h : History α} : x ∈ h.filterMap f ↔ d ∈ h := by
  simp only [List.mem_filterMap, hf, exists_eq_right]

theorem mem_cancelled {h : History α} {id : Nat} : id ∈ cancelled h ↔ .deactivated id ∈ h :=
  mem_filterMap_iff fun d => by cases d <;> simp [Deed.deactivated?]

theorem mem_removed {h : History α} {id : Nat} : id ∈ removed h ↔ .unregistered id ∈ h :=
  mem_filterMap_iff fun d => by cases d <;> simp [Deed.unregistered?]

theorem mem_registrations {h : History α} {p : Nat × String} :
    p ∈ registrations h ↔ .registered p.1 p.2 ∈ h :=
  mem_filterMap_iff fun d => by cases d <;> simp [Deed.registered?, Prod.ext_iff]

/-! ## Cancels that are under way -/

/-- The listeners that threads are in the middle of cancelling. -/
def Threads.cancelling (w : Threads α ε) : List Nat := w.threads.filterMap (·.cancelling?)

theorem Threads.Moves.cancelling {w w' : Threads α ε} {d : Option (Deed α)} (hm : w.Moves d w') :
    ∃ l₁ l₂ c c', w.cancelling = l₁ ++ (c.toList ++ l₂) ∧ w'.cancelling = l₁ ++ (c'.toList ++ l₂) ∧
      Cancels w.session.bus.alive c d c' := by
  rcases hm.threads with ⟨he, hplain⟩ | ⟨l₁, l₂, t, t', hold, hnew, -, hc⟩
  · refine ⟨w.cancelling, [], none, none, (List.append_nil _).symm, ?_, .other ?_ ?_⟩
    · rw [Threads.cancelling, he]
      exact (List.append_nil _).symm
    · rintro id rfl
      cases hplain _ rfl
    · rintro id rfl
      cases hplain _ rfl
  · have hcons (t : Thread α ε) : (t :: l₂).filterMap (·.cancelling?) =
        t.cancelling?.toList ++ l₂.filterMap (·.cancelling?) := by
      rw [List.filterMap_cons]
      cases t.cancelling? <;> rfl
    refine ⟨l₁.filterMap (·.cancelling?), l₂.filterMap (·.cancelling?), t.cancelling?,
      t'.cancelling?, ?_, ?_, hc⟩
    · rw [Threads.cancelling, hold, List.filterMap_append, hcons]
    · rw [Threads.cancelling, hnew, List.filterMap_append, hcons]

namespace Cancels

variable {alive : Bool} {c c' : Option Nat} {d : Option (Deed α)} {id : Nat}

/-- A cancel that is under way has begun before, or begins. -/
theorem begun (h : Cancels alive c d c') (hid : id ∈ c') :
    id ∈ c ∨ d = some (.deactivated id) := by
  cases h with
  | begins id' =>
    cases hid
    exact .inr rfl
  | _ => cases hid

/-- Only a cancel that is under way ends. -/
theorem ended (h : Cancels alive c d c') (hd : d = some (.unregistered id)) : id ∈ c := by
  cases h with
  | other _ hu => exact absurd hd (hu id)
  | ends id' =>
    cases hd
    rfl
  | _ => cases hd

/-- A cancel of a bus that is there goes on or ends. -/
theorem kept (h : Cancels alive c d c') (ha : alive = true)
    (hid : id ∈ c ∨ d = some (.deactivated id)) : d = some (.unregistered id) ∨ id ∈ c' := by
  cases h with
  | other hd => exact absurd (hid.resolve_left nofun) (hd id)
  | begins id' =>
    cases hid.resolve_left nofun
    exact .inr rfl
  | ends id' =>
    cases hid.resolve_right nofun
    exact .inl rfl
  | lapses id' hdead => exact absurd (hdead.symm.trans ha) Bool.false_ne_true

end Cancels

/-- A cancel switches its listener off before it takes it out of the registrations, and while the
bus is there it does not end before that. -/
structure Cancelling (h : History α) (w : Threads α ε) : Prop where
  begun : ∀ id ∈ w.cancelling, .deactivated id ∈ h
  order : ∀ id, .unregistered id ∈ h → .deactivated id ∈ h
  pending : w.session.bus.alive = true → ∀ id, .deactivated id ∈ h →
    .unregistered id ∈ h ∨ id ∈ w.cancelling

theorem Cancelling.step {h : History α} {w w' : Threads α ε} {d : Option (Deed α)}
    (hc : Cancelling h w) (hm : w.Moves d w') : Cancelling (h ++ d.toList) w' := by
  obtain ⟨l₁, l₂, c, c', hold, hnew, hcancels⟩ := hm.cancelling
  have hmem (id : Nat) : id ∈ w.cancelling ↔ id ∈ c ∨ id ∈ l₁ ++ l₂ := by
    rw [hold]
    simp [or_left_comm]
  have hmem' (id : Nat) : id ∈ w'.cancelling ↔ id ∈ c' ∨ id ∈ l₁ ++ l₂ := by
    rw [hnew]
    simp [or_left_comm]
  have hlog (deed : Deed α) : deed ∈ h ++ d.toList ↔ deed ∈ h ∨ d = some deed := by
    rw [List.mem_append, Option.mem_toList]
  constructor
  case begun =>
    intro id hid
    rw [hlog]
    rcases (hmem' id).1 hid with hid | hid
    · exact (hcancels.begun hid).imp_left fun hid => hc.begun id ((hmem id).2 (.inl hid))
    · exact .inl (hc.begun id ((hmem id).2 (.inr hid)))
  case order =>
    intro id hid
    rw [hlog] at hid ⊢
    rcases hid with hid | hd
    · exact .inl (hc.order id hid)
    · exact .inl (hc.begun id ((hmem id).2 (.inl (hcancels.ended hd))))
  case pending =>
    intro ha id hid
    have halive := hm.acts.alive ha
    rw [hlog] at hid
    rw [hlog, hmem', or_assoc]
    have hkept (hid : id ∈ c ∨ d = some (.deactivated id)) :
        d = some (.unregistered id) ∨ id ∈ c' ∨ id ∈ l₁ ++ l₂ :=
      (hcancels.kept halive hid).imp_right .inl
    -- a cancellation that is still going on goes on, unless this is its last deed
    rcases hid with hid | hd
    · refine (hc.pending halive id hid).imp_right fun hmid => ?_
      rcases (hmem id).1 hmid with hmid | hmid
      · exact hkept (.inl hmid)
      · exact .inr (.inr hmid)
    · exact .inr (hkept (.inr hd))

variable {capacity n : Nat} {clock : Clock} {h h₁ h₂ : History α} {w : Threads α ε}

theorem Run.cancelling (run : Run (.new capacity clock n) h w) : Cancelling h w := by
  refine run.invariant Cancelling ⟨?_, nofun, nofun⟩ fun _ _ _ _ _ hc hm _ => hc.step hm
  intro id hid
  obtain ⟨t, ht, hc⟩ := List.mem_filterMap.1 hid
  rw [Threads.new, List.mem_replicate] at ht
  rw [ht.2] at hc
  cases hc

/-! ## The registrations of a bus -/

/-- A deed does to the registrations what it does to the history of them. -/
theorem listingOf_concat {d : Deed α}
    (hnew : ∀ id topic, d = .registered id topic → id ∉ cancelled h ∧ id ∉ removed h) :
    listingOf (h ++ [d]) = (listingOf h).map d.onRegistration ++ d.newRegistrations := by
  rw [listingOf, registrations_concat, cancelled_concat, removed_concat, listingOf, List.map_map]
  cases d with
  | registered id topic =>
    obtain ⟨hc, hr⟩ := hnew id topic rfl
    simp [Deed.registered?, Deed.deactivated?, Deed.unregistered?, Deed.newRegistrations,
      Deed.onRegistration, hc, hr]
  | deactivated id =>
    simp only [Deed.registered?, Deed.deactivated?, Deed.unregistered?, Deed.newRegistrations,
      Option.toList_none, Option.toList_some, List.append_nil]
    refine List.map_congr_left fun p _ => ?_
    by_cases he : p.1 = id <;> simp [Deed.onRegistration, he]
  | unregistered id =>
    simp only [Deed.registered?, Deed.deactivated?, Deed.unregistered?, Deed.newRegistrations,
      Option.toList_none, Option.toList_some, List.append_nil]
    refine List.map_congr_left fun p _ => ?_
    by_cases he : p.1 = id <;> simp [Deed.onRegistration, he]
  | _ =>
    simp [Deed.registered?, Deed.deactivated?, Deed.unregistered?, Deed.newRegistrations,
      Deed.onRegistration]

/-- **The registrations of a bus follow from its history.** -/
theorem Run.listing (run : Run (.new capacity clock n) h w) :
    w.session.bus.listing = listingOf h := by
  refine run.invariant_deed (fun h w => w.session.bus.listing = listingOf h) rfl
    (fun _ _ _ _ hl hm => hm.acts.listing.trans hl) (fun h w d w' run hl hm hd => ?_)
  rw [hm.acts.listing, Option.elim_some, hl, listingOf_concat]
  rintro id topic rfl
  -- a new listener has a new number
  have hnot : .deactivated id ∉ h := fun hin =>
    Nat.ne_of_lt (run.sound.listeners.2 id (run.sound.listener_mem id hin)) hd
  exact ⟨fun hin => hnot (mem_cancelled.1 hin),
    fun hin => hnot (run.cancelling.order id (mem_removed.1 hin))⟩

theorem ids_listingOf (h : History α) : (listingOf h).map (·.id) = (registrations h).map (·.1) := by
  rw [listingOf, List.map_map]
  rfl

theorem Run.nodup_registrations (run : Run (.new capacity clock n) h w) :
    ((registrations h).map (·.1)).Nodup := by
  rw [← ids_listingOf, ← run.listing]
  exact run.sound.listeners.1

theorem Run.registeredOn_eq (run : Run (.new capacity clock n) h w) (topic : String) :
    (w.session.bus.registeredOn topic).map (·.id) = enrolled topic h := by
  have hids : (w.session.bus.registeredOn topic).map (·.id) =
      (w.session.bus.listing.filter fun r => r.registered && r.topic = topic).map (·.id) := by
    rw [State.registeredOn, State.listing, List.filter_map, List.map_map]
    rfl
  rw [hids, run.listing, listingOf, enrolled, registeredOn, List.filter_map, List.filter_map,
    List.map_map, List.filter_filter]
  rfl

/-- A listener is active as long as no cancel has switched it off. -/
theorem Run.any_active (run : Run (.new capacity clock n) h w) {id : Nat} {topic : String}
    (hid : .registered id topic ∈ h) :
    (w.session.bus.listener? id).any (·.active) = decide (id ∉ cancelled h) := by
  -- the bus looks the listener up by its number, and so can its history
  have hfind : (w.session.bus.listener? id).any (·.active) =
      (w.session.bus.listing.find? (·.id = id)).any (·.active) := by
    rw [State.listing, List.find?_map, Option.any_map]
    rfl
  have hsome : ((listingOf h).find? (·.id = id)).isSome = true :=
    List.find?_isSome.2 ⟨_, List.mem_map_of_mem (a := (id, topic)) (mem_registrations.2 hid),
      decide_eq_true rfl⟩
  rw [hfind, run.listing]
  obtain ⟨r, hr⟩ := Option.isSome_iff_exists.1 hsome
  obtain ⟨p, -, rfl⟩ := List.mem_map.1 (List.mem_of_find?_eq_some hr)
  have hp : p.1 = id := by simpa using List.find?_some hr
  rw [hr, Option.any_some, hp]

/-! ## Turns -/

section

variable {k : Nat} {within : List Nat} {topic : String} {event : α} {audience listeners : List Nat}

theorem mem_registeredOn {l : Nat} (hl : l ∈ registeredOn topic h) : .registered l topic ∈ h := by
  obtain ⟨p, hp, rfl⟩ := List.mem_map.1 hl
  obtain ⟨hmem, ht⟩ := List.mem_filter.1 hp
  rw [← of_decide_eq_true ht]
  exact mem_registrations.1 hmem

theorem nodup_enrolled (hn : ((registrations h).map (·.1)).Nodup) : (enrolled topic h).Nodup :=
  (hn.sublist (List.filter_sublist.map _)).filter _

/-- An emit finds the listeners that are registered on its topic. -/
theorem Run.listeners_eq (run : Run (.new capacity clock n)
      (h₁ ++ .started k within topic event audience listeners :: h₂) w) :
    listeners = enrolled topic h₁ ∧ listeners.Nodup := by
  obtain ⟨w₁, -, run₁, -, -, -, -, hl⟩ := run.split
  rw [run₁.registeredOn_eq] at hl
  exact ⟨hl, hl ▸ nodup_enrolled run₁.nodup_registrations⟩

/-- **A listener that has its turn is called unless a cancel has switched it off.** -/
theorem Run.called {l : Nat} {called : Bool}
    (run : Run (.new capacity clock n) (h₁ ++ .turn k l called :: h₂) w) :
    called = true ↔ .deactivated l ∉ h₁ := by
  obtain ⟨w₁, w₂, run₁, -, hm, hcalled⟩ := run.split
  obtain ⟨f, hf, -, rest, hr⟩ := hm.frame_of_turn
  obtain ⟨within, topic, listeners, done, hlog, hp⟩ := run₁.emits.frames f hf
  have hstart : .started f.number within topic f.event f.audience listeners ∈ h₁ :=
    (mem_deedsOf.1 (hlog ▸ List.mem_cons_self)).1
  obtain ⟨a, b, rfl⟩ := List.append_of_mem hstart
  have hl : l ∈ enrolled topic a := by
    rw [← run₁.listeners_eq.1, ← hp.turns, hr]
    exact List.mem_append_right _ List.mem_cons_self
  have hreg := mem_registeredOn (List.mem_filter.1 hl).1
  rw [hcalled, run₁.any_active (List.mem_append_left _ hreg), decide_eq_true_iff, mem_cancelled]

/-- A listener that is registered later is not among those that an emit has found. -/
theorem Run.not_mem_listeners {l : Nat} {topic' : String} (run : Run (.new capacity clock n)
      (h₁ ++ .started k within topic event audience listeners :: h₂) w)
    (hl : .registered l topic' ∈ h₂) : l ∉ listeners := by
  intro hin
  rw [run.listeners_eq.1] at hin
  have hold : (l, topic) ∈ registrations h₁ :=
    mem_registrations.2 (mem_registeredOn (List.mem_filter.1 hin).1)
  have hnew : (l, topic') ∈ registrations h₂ := mem_registrations.2 hl
  have hnodup := run.nodup_registrations
  have hsplit : registrations (h₁ ++ .started k within topic event audience listeners :: h₂) =
      registrations h₁ ++ registrations h₂ := List.filterMap_append
  rw [hsplit, List.map_append, List.nodup_append] at hnodup
  exact hnodup.2.2 l (List.mem_map_of_mem hold) l (List.mem_map_of_mem hnew) rfl

end

theorem tally_listeners (log : History α) : (tally log).listeners = (calls log).length := by
  induction log using List.reverseRecOn with
  | nil => rfl
  | append_singleton log d ih =>
    rw [tally_append, Delivery.listeners_add, ih, calls, calls, filterMap_concat,
      List.length_append]
    congr 1
    cases d with
    | turn k id called => cases called <;> rfl
    | _ => rfl

/-- The listeners that an emit calls have their turns in it. -/
theorem calls_sublist_turns (log : History α) : (calls log).Sublist (turns log) := by
  induction log with
  | nil => exact .slnil
  | cons d log ih =>
    rw [calls, turns, List.filterMap_cons, List.filterMap_cons]
    cases d with
    | turn k id called =>
      cases called with
      | true => exact ih.cons_cons id
      | false => exact ih.cons id
    | _ => exact ih

/-- A topic has as many listeners as are registered on it. -/
theorem Run.listenerCount_eq (run : Run (.new capacity clock n) h w) (topic : String) :
    w.session.bus.listenerCount topic = (enrolled topic h).length := by
  rw [← run.registeredOn_eq, List.length_map, State.listenerCount]

/-- When nobody is in the middle of a cancel, the listeners that are registered are those that have
not been cancelled. -/
theorem Run.enrolled_eq (run : Run (.new capacity clock n) h w)
    (halive : w.session.bus.alive = true) (hidle : w.cancelling = []) (topic : String) :
    enrolled topic h = (registeredOn topic h).filter (· ∉ cancelled h) := by
  have hsame (id : Nat) : id ∈ removed h ↔ id ∈ cancelled h := by
    rw [mem_removed, mem_cancelled]
    refine ⟨run.cancelling.order id, fun hid => ?_⟩
    refine (run.cancelling.pending halive id hid).resolve_right ?_
    rw [hidle]
    exact List.not_mem_nil
  simp only [enrolled, hsame]

/-- When an emit has returned, each listener that it had found has had its turn. -/
theorem Run.exists_turn {k l : Nat} {within : List Nat} {topic : String} {event : α}
    {audience listeners : List Nat} {delivery : Delivery}
    (run : Run (.new capacity clock n)
      (h₁ ++ .started k within topic event audience listeners :: h₂) w)
    (hr : .returned k delivery ∈ h₂) (hl : l ∈ listeners) :
    ∃ a b called, h₂ = a ++ .turn k l called :: b ∧
      (called = true ↔
        .deactivated l ∉ h₁ ++ .started k within topic event audience listeners :: a) := by
  have hturns :=
    (run.course.returned delivery (mem_deedsOf.2 ⟨hr, rfl⟩)).2.1
  rw [← hturns] at hl
  obtain ⟨d, hd, hdl⟩ := List.mem_filterMap.1 hl
  obtain ⟨hmem, hk⟩ := mem_deedsOf.1 hd
  cases d with
  | turn k' l' called =>
    cases hdl
    cases hk
    obtain ⟨a, b, rfl⟩ := List.append_of_mem hmem
    refine ⟨a, b, called, rfl, ?_⟩
    rw [← List.cons_append, ← List.append_assoc] at run
    exact run.called
  | _ => cases hdl

/-- What is called, after a history. -/
structure Called (h : History α) (w : Threads α ε) : Prop where
  /-- An emit finds the listeners that are registered on its topic, in the order of registration,
  and none that is registered later. -/
  finds : ∀ h₁ h₂ k within topic event audience listeners,
    h = h₁ ++ .started k within topic event audience listeners :: h₂ →
      listeners = Bus.enrolled topic h₁ ∧ listeners.Nodup ∧
        ∀ l topic', .registered l topic' ∈ h₂ → l ∉ listeners
  /-- It gives them their turns in this order, and calls some of those. -/
  turns : ∀ h₁ h₂ k within topic event audience listeners,
    h = h₁ ++ .started k within topic event audience listeners :: h₂ →
      Bus.turns (deedsOf k h₂) <+: listeners ∧ (calls (deedsOf k h₂)).Sublist listeners
  /-- When it has returned, each of them has had its turn and has been called then unless it had
  been cancelled, and it counts the calls. -/
  returned : ∀ h₁ h₂ k within topic event audience listeners delivery,
    h = h₁ ++ .started k within topic event audience listeners :: h₂ → .returned k delivery ∈ h₂ →
      Bus.turns (deedsOf k h₂) = listeners ∧
      (∀ l ∈ listeners, ∃ a b called, h₂ = a ++ .turn k l called :: b ∧
        (called = true ↔
          .deactivated l ∉ h₁ ++ .started k within topic event audience listeners :: a)) ∧
      delivery.listeners = (calls (deedsOf k h₂)).length
  /-- No emit calls a listener that has been cancelled. -/
  cancelled : ∀ h₁ h₂ l, h = h₁ ++ .deactivated l :: h₂ → ∀ k, .turn k l true ∉ h₂
  /-- A topic has the listeners that are registered on it. -/
  count : ∀ topic, w.session.bus.listenerCount topic = (enrolled topic h).length
  /-- While nobody is in the middle of a cancel, these are the ones that have been registered and
  not cancelled. -/
  enrolled : w.session.bus.alive = true → w.cancelling = [] → ∀ topic,
    Bus.enrolled topic h = (registeredOn topic h).filter (· ∉ Bus.cancelled h)

/-- **An emit calls the listeners that were registered when it started and are not cancelled when
their turn comes.** -/
theorem calls_of_run (run : Run (.new capacity clock n) h w) : Called h w := by
  constructor
  case finds =>
    rintro h₁ h₂ k within topic event audience listeners rfl
    obtain ⟨hl, hn⟩ := run.listeners_eq
    exact ⟨hl, hn, fun l topic' hreg => run.not_mem_listeners hreg⟩
  case turns =>
    rintro h₁ h₂ k within topic event audience listeners rfl
    have hturns := run.course.turns
    exact ⟨hturns, (calls_sublist_turns _).trans hturns.sublist⟩
  case returned =>
    rintro h₁ h₂ k within topic event audience listeners delivery rfl hr
    obtain ⟨-, hturns, htally⟩ :=
      run.course.returned delivery (mem_deedsOf.2 ⟨hr, rfl⟩)
    exact ⟨hturns, fun l hl => run.exists_turn hr hl, by rw [htally, tally_listeners]⟩
  case cancelled =>
    rintro h₁ h₂ l rfl k hin
    obtain ⟨a, b, rfl⟩ := List.append_of_mem hin
    rw [← List.cons_append, ← List.append_assoc] at run
    exact run.called.1 rfl (List.mem_append_right _ List.mem_cons_self)
  case count => exact run.listenerCount_eq
  case enrolled => exact run.enrolled_eq

/-- A listener cancels another one that has not had its turn yet, and registers a third one. -/
theorem calls_of_run_cancel :
    ∃ (h : History Nat) (w : Threads Nat Unit), Run (.new 1 {} 1) h w ∧
      turns h = [1, 2] ∧ calls h = [1] ∧ registeredOn "t" h = [1, 2, 3] ∧
      w.session.bus.listenerCount "t" = 2 ∧ Called h w := by
  let callback : Callback Nat Unit := fun _ _ =>
    .call (.cancel "b") fun _ => .call (.on "c" "t" fun _ _ => .done) fun _ => .done
  let program : Reaction Nat Unit :=
    .call (.on "a" "t" callback) fun _ => .call (.on "b" "t" fun _ _ => .done) fun _ =>
      .call (.emit "t" 7) fun _ => .done
  obtain ⟨h, w, run, ht, hc, hr, hl⟩ := Run.exists_of_play (.new 1 {} 1)
    (.begin 0 program :: List.replicate 10 (.step 0))
    (fun h w => turns h = [1, 2] ∧ calls h = [1] ∧ registeredOn "t" h = [1, 2, 3] ∧
      w.session.bus.listenerCount "t" = 2) (by decide)
  exact ⟨h, w, run, ht, hc, hr, hl, calls_of_run run⟩

end ScriptHost.Bus
