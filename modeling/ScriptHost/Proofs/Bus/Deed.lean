import ScriptHost.Bus.Threads
import Mathlib.Data.List.Basic

/-!
# What is done to a bus

A *deed* is what a step of a thread does, as far as others can notice: something becomes of an
inbox, of a listener or of an emit.  Emits go by their numbers.  A deed is what the thread has found
or has been told at that step, such as the event that is the reply to its call.

* `Threads.deed?` — the deed of a step, if it does one.
* `Acts` — what a step with a given deed makes of the inboxes (`State.contents`) and of the
  registrations (`State.listing`).  Everything else that is done to a bus, such as counting owners
  and callers, leaves these as they are, so they follow from the history alone.
-/

set_option autoImplicit false

namespace ScriptHost.Bus

variable {α β ε : Type}

/-! ## Deeds -/

/-- What a step of a thread does, as far as others can notice. -/
inductive Deed (α : Type) where
  | registered (listener : Nat) (topic : String)
  /-- A cancel has switched the listener off. -/
  | deactivated (listener : Nat)
  /-- A cancel has taken the listener out of the registrations. -/
  | unregistered (listener : Nat)
  | subscribed (inbox : Nat) (topics : List String)
  /-- An emit starts, within others that its thread has under way, and finds these inboxes and these
  listeners. -/
  | started (emit : Nat) (within : List Nat) (topic : String) (event : α)
      (audience listeners : List Nat)
  /-- An open inbox gets the event of an emit, and loses one if it is full. -/
  | offered (emit inbox : Nat) (event : α) (lost : Option α)
  /-- A closed inbox does not. -/
  | declined (emit inbox : Nat) (event : α)
  /-- A listener has its turn in an emit; whether it is called. -/
  | turn (emit listener : Nat) (called : Bool)
  | returned (emit : Nat) (delivery : Delivery)
  /-- Somebody who has asked for an event of an inbox gets one. -/
  | taken (inbox : Nat) (event : α)
  | closed (inbox : Nat)

/-- The deeds of a run, in the order in which they were done. -/
abbrev History (α : Type) := List (Deed α)

/-- The oldest event, if it is lost when another one is put in. -/
def Inbox.lost? (capacity : Nat) (i : Inbox α) : Option α :=
  if i.losesOn capacity then i.events.head? else none

/-- A full inbox has an event to lose. -/
theorem State.isSome_lost? (s : State α β) (i : Inbox α) :
    (i.lost? s.capacity).isSome = i.losesOn s.capacity := by
  have hpos := s.capacity_pos
  cases hl : i.losesOn s.capacity with
  | false => simp [Inbox.lost?, hl]
  | true =>
    have hfull : s.capacity ≤ i.events.length := by simp_all [Inbox.losesOn]
    have hne : i.events ≠ [] := List.ne_nil_of_length_pos (by omega)
    simp [Inbox.lost?, hl, hne]

/-- What an emit does when it goes on. -/
def Frame.deed? (f : Frame α ε) (s : State α β) : Option (Deed α) :=
  match f.targets, f.calling, f.rest with
  | id :: _, _, _ =>
    match s.inbox? id with
    | some i =>
      if i.closed then some (.declined f.number id f.event)
      else some (.offered f.number id f.event (i.lost? s.capacity))
    | none => some (.declined f.number id f.event)
  | [], some _, _ => none
  | [], none, id :: _ => some (.turn f.number id ((s.listener? id).any (·.active)))
  | [], none, [] => some (.returned f.number f.delivery)

namespace Session

/-- What a call does in its first step. -/
def deed? (s : Session α ε) (stack : List (Frame α ε)) : Call α ε → Option (Deed α)
  | .emit topic event => some (.started s.emits (stack.map (·.number)) topic event
      (s.bus.audience topic) ((s.bus.registeredOn topic).map (·.id)))
  | .on _ topic _ => some (.registered s.bus.nextId topic)
  | .cancel name => (Record.get? s.handles name).map .deactivated
  | .subscribe _ topics =>
    some (.subscribed s.bus.nextId (Record.names (Record.ofList (topics.map fun t => (t, ())))))
  | .tryNext name => (Record.get? s.subscribers name).bind fun id =>
    (s.bus.take id).1.map (.taken id)
  | .close name => (Record.get? s.subscribers name).map .closed
  | _ => none

/-- What a call does that had to wait: it tells of the event that is its reply. -/
def waitDeed? (s : Session α ε) (thread : Nat) (q : Request) : Option (Deed α) :=
  match q, s.reply? thread q with
  | .take id _, some (.event event, _) => event.map (.taken id)
  | .unregister id, some _ => if s.bus.alive then some (.unregistered id) else none
  | _, _ => none

/-- What the next step of a thread does. -/
def threadDeed? (s : Session α ε) (thread : Nat) (t : Thread α ε) : Option (Deed α) :=
  match t.control with
  | .run .done => t.stack.head?.bind (·.deed? s.bus)
  | .run (.note _ _) => none
  | .run (.call c _) => s.deed? t.stack c
  | .wait q _ => s.waitDeed? thread q

end Session

/-- What a step does. -/
def Threads.deed? (w : Threads α ε) : Threads.Label α ε → Option (Deed α)
  | .step i => w.threads[i]?.bind (w.session.threadDeed? i)
  | .answer task => (Record.get? w.session.waiters task).bind fun waiter =>
    (w.session.bus.take waiter.inbox).1.map (.taken waiter.inbox)
  | _ => none

/-! ## What a deed does to inboxes and registrations -/

/-- An inbox, whoever has it. -/
def Inbox.unowned (i : Inbox α) : Inbox α := { i with owners := 0 }

theorem Inbox.unowned_offer (capacity : Nat) (event : α) (i : Inbox α) :
    (i.offer capacity event).unowned = i.unowned.offer capacity event := by
  by_cases hc : i.closed = true
  · simp [offer, unowned, hc]
  · by_cases hf : capacity ≤ i.events.length <;> simp [offer, unowned, hc, hf]

@[simp] theorem Inbox.id_offer (capacity : Nat) (event : α) (i : Inbox α) :
    (i.offer capacity event).id = i.id := by
  simp only [offer]
  split
  · rfl
  · split <;> rfl

/-- A listener without its callback and those who call it. -/
structure Registration where
  id : Nat
  topic : String
  active : Bool := true
  registered : Bool := true

/-- A listener, whoever calls it. -/
def Listener.registration (l : Listener β) : Registration :=
  { id := l.id, topic := l.topic, active := l.active, registered := l.registered }

namespace State

/-- The inboxes of a bus, whoever has them. -/
def contents (s : State α β) : List (Inbox α) := s.inboxes.map (·.unowned)

/-- The registrations of a bus, in order. -/
def listing (s : State α β) : List Registration := s.listeners.map (·.registration)

end State

namespace Deed

/-- What a deed makes of an inbox that there was before. -/
def onInbox (capacity : Nat) : Deed α → Inbox α → Inbox α
  | offered _ id event _, i => if i.id = id then i.offer capacity event else i
  | declined _ id event, i => if i.id = id then i.offer capacity event else i
  | taken id _, i => if i.id = id then { i with events := i.events.drop 1 } else i
  | closed id, i => if i.id = id then i.close else i
  | _, i => i

/-- The inboxes that a deed adds. -/
def newInboxes : Deed α → List (Inbox α)
  | subscribed id topics => [{ id, topics, owners := 0 }]
  | _ => []

/-- What a deed makes of a registration that there was before. -/
def onRegistration : Deed α → Registration → Registration
  | deactivated id, r => if r.id = id then { r with active := false } else r
  | unregistered id, r => if r.id = id then { r with registered := false } else r
  | _, r => r

/-- The registrations that a deed adds. -/
def newRegistrations : Deed α → List Registration
  | registered id topic => [{ id, topic }]
  | _ => []

@[simp] theorem id_onInbox (d : Deed α) (capacity : Nat) (i : Inbox α) :
    (d.onInbox capacity i).id = i.id := by
  cases d with
  | offered | declined => simp only [onInbox]; split <;> simp
  | taken | closed => simp only [onInbox]; split <;> rfl
  | _ => rfl

@[simp] theorem id_onRegistration (d : Deed α) (r : Registration) :
    (d.onRegistration r).id = r.id := by
  cases d with
  | deactivated | unregistered => simp only [onRegistration]; split <;> rfl
  | _ => rfl

end Deed

/-- What a step with a deed, or none, makes of a bus. -/
structure Acts (s : State α β) (d : Option (Deed α)) (s' : State α β) : Prop where
  capacity : s'.capacity = s.capacity
  alive : s'.alive = true → s.alive = true
  contents : s'.contents =
    d.elim s.contents fun d => s.contents.map (d.onInbox s.capacity) ++ d.newInboxes
  listing : s'.listing =
    d.elim s.listing fun d => s.listing.map d.onRegistration ++ d.newRegistrations
  nextId : s'.nextId =
    s.nextId + d.elim 0 fun d => d.newInboxes.length + d.newRegistrations.length

namespace State

theorem contents_modifyInbox (s : State α β) (id : Nat) {f : Inbox α → Inbox α}
    (hf : ∀ i, (f i).unowned = f i.unowned) :
    (s.modifyInbox id f).contents = s.contents.map fun i => if i.id = id then f i else i := by
  simp only [contents, modifyInbox, List.map_map]
  refine List.map_congr_left fun i _ => ?_
  simp only [Function.comp_apply]
  by_cases h : i.id = id
  · rw [if_pos h, if_pos (show i.unowned.id = id from h), hf]
  · rw [if_neg h, if_neg (show ¬ i.unowned.id = id from h)]

theorem contents_modifyInbox_of_owners (s : State α β) (id : Nat) {f : Inbox α → Inbox α}
    (hf : ∀ i, (f i).unowned = i.unowned) : (s.modifyInbox id f).contents = s.contents := by
  simp only [contents, modifyInbox, List.map_map]
  refine List.map_congr_left fun i _ => ?_
  by_cases h : i.id = id <;> simp [h, hf]

theorem listing_modifyListener (s : State α β) (id : Nat) {f : Listener β → Listener β}
    {g : Registration → Registration} (hf : ∀ l, (f l).registration = g l.registration) :
    (s.modifyListener id f).listing = s.listing.map fun r => if r.id = id then g r else r := by
  simp only [listing, modifyListener, List.map_map]
  refine List.map_congr_left fun l _ => ?_
  simp only [Function.comp_apply]
  by_cases h : l.id = id
  · rw [if_pos h, if_pos (show l.registration.id = id from h), hf]
  · rw [if_neg h, if_neg (show ¬ l.registration.id = id from h)]

theorem listing_modifyListener_of_calls (s : State α β) (id : Nat) {f : Listener β → Listener β}
    (hf : ∀ l, (f l).registration = l.registration) :
    (s.modifyListener id f).listing = s.listing := by
  simp only [listing, modifyListener, List.map_map]
  refine List.map_congr_left fun l _ => ?_
  by_cases h : l.id = id <;> simp [h, hf]

end State

namespace Acts

variable {s s' s'' : State α β}

theorem refl (s : State α β) : Acts s none s := ⟨rfl, id, rfl, rfl, rfl⟩

/-- A step may do more than its deed, as long as that is none. -/
theorem of_none {d : Option (Deed α)} (h : Acts s none s') (h' : Acts s' d s'') : Acts s d s'' where
  capacity := h'.capacity.trans h.capacity
  alive := h.alive ∘ h'.alive
  contents := by rw [h'.contents, h.contents, h.capacity]; rfl
  listing := by rw [h'.listing, h.listing]; rfl
  nextId := by rw [h'.nextId, h.nextId]; rfl

theorem then_none {d : Option (Deed α)} (h : Acts s d s') (h' : Acts s' none s'') :
    Acts s d s'' where
  capacity := h'.capacity.trans h.capacity
  alive := h.alive ∘ h'.alive
  contents := h'.contents.trans h.contents
  listing := h'.listing.trans h.listing
  nextId := h'.nextId.trans h.nextId

theorem own (s : State α β) (id : Nat) : Acts s none (s.own id) :=
  ⟨rfl, fun h => h, s.contents_modifyInbox_of_owners id fun _ => rfl, rfl, rfl⟩

theorem disown (s : State α β) (id : Nat) : Acts s none (s.disown id) :=
  ⟨rfl, fun h => h, s.contents_modifyInbox_of_owners id fun _ => rfl, rfl, rfl⟩

/-- What is done to some inboxes, one after the other, is no deed if it is none for each. -/
theorem foldl {f : State α β → Nat → State α β} (hf : ∀ s id, Acts s none (f s id))
    (ids : List Nat) (s : State α β) : Acts s none (ids.foldl f s) := by
  induction ids generalizing s with
  | nil => exact refl s
  | cons id ids ih => exact (hf s id).of_none (ih (f s id))

theorem enter (s : State α β) (thread id : Nat) : Acts s none (s.enter thread id) :=
  ⟨rfl, fun h => h, rfl, s.listing_modifyListener_of_calls id fun _ => rfl, rfl⟩

theorem leave (s : State α β) (thread id : Nat) : Acts s none (s.leave thread id) :=
  ⟨rfl, fun h => h, rfl, s.listing_modifyListener_of_calls id fun _ => rfl, rfl⟩

theorem dropBus (s : State α β) : Acts s none { s with alive := false } :=
  ⟨rfl, fun h => absurd h Bool.false_ne_true, rfl, rfl, rfl⟩

theorem on (s : State α β) (topic : String) (callback : β) :
    Acts s (some (.registered s.nextId topic)) (s.on topic callback).2 where
  capacity := rfl
  alive := fun h => h
  contents := by simp [State.on, State.contents, Deed.onInbox, Deed.newInboxes]
  listing := by
    simp [State.on, State.listing, Deed.onRegistration, Deed.newRegistrations,
      Listener.registration]
  nextId := rfl

theorem subscribe (s : State α β) (topics : List String) :
    Acts s
      (some (.subscribed s.nextId (Record.names (Record.ofList (topics.map fun t => (t, ()))))))
      (s.subscribe topics).2 where
  capacity := rfl
  alive := fun h => h
  contents := by
    simp [State.subscribe, State.contents, Deed.onInbox, Deed.newInboxes, Inbox.unowned]
  listing := by simp [State.subscribe, State.listing, Deed.onRegistration, Deed.newRegistrations]
  nextId := rfl

/-- A deed that changes inboxes, and nothing else. -/
theorem of_inbox (s : State α β) (id : Nat) {f : Inbox α → Inbox α} {d : Deed α}
    (hf : ∀ i, (f i).unowned = f i.unowned)
    (hd : d.onInbox s.capacity = fun i => if i.id = id then f i else i)
    (hnew : d.newInboxes = []) (hsame : d.onRegistration = fun r => r)
    (hnone : d.newRegistrations = []) : Acts s (some d) (s.modifyInbox id f) where
  capacity := rfl
  alive := fun h => h
  contents := by
    rw [s.contents_modifyInbox id hf, Option.elim_some, hd, hnew, List.append_nil]
  listing := by
    rw [Option.elim_some, hsame, hnone, List.map_id', List.append_nil]
    rfl
  nextId := by
    rw [Option.elim_some, hnew, hnone]
    rfl

/-- A deed that changes registrations, and nothing else. -/
theorem of_listener (s : State α β) (id : Nat) {f : Listener β → Listener β}
    {g : Registration → Registration} {d : Deed α}
    (hf : ∀ l, (f l).registration = g l.registration)
    (hd : d.onRegistration = fun r => if r.id = id then g r else r)
    (hnew : d.newInboxes = []) (hsame : d.onInbox s.capacity = fun i => i)
    (hnone : d.newRegistrations = []) : Acts s (some d) (s.modifyListener id f) where
  capacity := rfl
  alive := fun h => h
  contents := by
    rw [Option.elim_some, hsame, hnew, List.map_id', List.append_nil]
    rfl
  listing := by
    rw [s.listing_modifyListener id hf, Option.elim_some, hd, hnone, List.append_nil]
  nextId := by
    rw [Option.elim_some, hnew, hnone]
    rfl

theorem deactivate (s : State α β) (id : Nat) :
    Acts s (some (.deactivated id)) (s.deactivate id) :=
  of_listener s id (g := fun r => { r with active := false }) (fun _ => rfl) rfl rfl rfl rfl

theorem unregister {s : State α β} (h : s.alive = true) (id : Nat) :
    Acts s (some (.unregistered id)) (s.unregister id) := by
  refine of_listener s id (g := fun r => { r with registered := false }) (fun l => ?_)
    rfl rfl rfl rfl
  simp [Listener.registration, h]

/-- A bus that nobody has any more keeps its registrations. -/
theorem unregister_of_dropped {s : State α β} (h : s.alive = false) (id : Nat) :
    Acts s none (s.unregister id) := by
  refine ⟨rfl, fun h => h, rfl, s.listing_modifyListener_of_calls id fun l => ?_, rfl⟩
  simp [h]

theorem close (s : State α β) (id : Nat) :
    Acts s (some (.closed id)) (s.modifyInbox id Inbox.close) :=
  of_inbox s id (fun _ => rfl) rfl rfl rfl rfl

theorem take (s : State α β) (id : Nat) :
    Acts s ((s.take id).1.map (.taken id)) (s.take id).2 := by
  rw [State.take]
  split
  · exact refl s
  · exact of_inbox s id (fun _ => rfl) rfl rfl rfl rfl

theorem offered (s : State α β) (k id : Nat) (event : α) (lost : Option α) :
    Acts s (some (.offered k id event lost)) (s.offer id event).2 :=
  of_inbox s id (fun i => i.unowned_offer s.capacity event) rfl rfl rfl rfl

theorem declined (s : State α β) (k id : Nat) (event : α) :
    Acts s (some (.declined k id event)) (s.offer id event).2 :=
  of_inbox s id (fun i => i.unowned_offer s.capacity event) rfl rfl rfl rfl

/-- A deed that concerns emits alone. -/
theorem of_emit {s s' : State α β} (h : Acts s none s') {d : Deed α}
    (hi : d.onInbox s.capacity = fun i => i) (hr : d.onRegistration = fun r => r)
    (hnew : d.newInboxes = []) (hnone : d.newRegistrations = []) : Acts s (some d) s' where
  capacity := h.capacity
  alive := h.alive
  contents := by
    rw [h.contents, Option.elim_none, Option.elim_some, hi, hnew, List.map_id', List.append_nil]
  listing := by
    rw [h.listing, Option.elim_none, Option.elim_some, hr, hnone, List.map_id', List.append_nil]
  nextId := by
    rw [h.nextId, Option.elim_none, Option.elim_some, hnew, hnone]
    rfl

end Acts

end ScriptHost.Bus
