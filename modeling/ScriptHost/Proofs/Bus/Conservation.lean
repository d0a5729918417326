import ScriptHost.Proofs.Bus.Emission
import Mathlib.Algebra.GroupWithZero.Nat

/-!
# Conservation of events

No event gets lost on a bus without being counted, and none comes twice.  As long as an inbox is
open, what it has been offered is what has left it, in this order, followed by what it still holds;
and what has left it was either taken by somebody or lost to make room.
-/

set_option autoImplicit false

namespace ScriptHost.Bus

variable {α ε : Type}

/-! ## The history of an inbox -/

/-- How an event leaves an open inbox: somebody takes it, or it is lost to make room. -/
inductive Fate where
  | taken
  | lost
deriving DecidableEq

/-- The event that an inbox is offered, with its emit. -/
def Deed.offer? (id : Nat) : Deed α → Option (Nat × α)
  | offered k id' event _ => if id' = id then some (k, event) else none
  | _ => none

/-- The event that leaves an inbox. -/
def Deed.departure? (id : Nat) : Deed α → Option (Fate × α)
  | offered _ id' _ lost => if id' = id then lost.map (.lost, ·) else none
  | taken id' event => if id' = id then some (.taken, event) else none
  | _ => none

/-- What an inbox has been offered, in order. -/
def offers (id : Nat) (h : History α) : List (Nat × α) := h.filterMap (Deed.offer? id)

/-- What has left an inbox, in order. -/
def departures (id : Nat) (h : History α) : List (Fate × α) := h.filterMap (Deed.departure? id)

/-- The events that have left an inbox in one way. -/
def gone (fate : Fate) (id : Nat) (h : History α) : List α :=
  ((departures id h).filter (·.1 = fate)).map (·.2)

/-- What an inbox has been offered and has not left it yet. -/
def pending (id : Nat) (h : History α) : List α :=
  ((offers id h).map (·.2)).drop (departures id h).length

theorem offers_concat (id : Nat) (h : History α) (d : Deed α) :
    offers id (h ++ [d]) = offers id h ++ (d.offer? id).toList := filterMap_concat ..

theorem departures_concat (id : Nat) (h : History α) (d : Deed α) :
    departures id (h ++ [d]) = departures id h ++ (d.departure? id).toList := filterMap_concat ..

/-- A deed on another inbox. -/
theorem Deed.of_inbox?_ne {id : Nat} {d : Deed α} (h : d.inbox? ≠ some id) :
    d.offer? id = none ∧ d.departure? id = none ∧ d ≠ .closed id := by
  cases d <;> simp_all [inbox?, offer?, departure?]

theorem Deed.Fits.onInbox_of_ne {s : Session α ε} {d : Deed α} (hd : d.Fits s) {i : Inbox α}
    (hi : s.bus.inbox? i.id = some i) (hid : d.inbox? ≠ some i.id) (capacity : Nat) :
    d.onInbox capacity i.unowned = i.unowned := by
  cases d with
  | offered id | taken id | closed id => exact if_neg fun he => hid (congrArg some he.symm)
  | declined k id event =>
    -- an inbox that declines is closed
    rw [onInbox]
    split
    · rename_i he
      exact if_pos (hd i (he ▸ hi))
    · rfl
  | _ => rfl

/-- An inbox after a history. -/
structure Inbox.Balanced (capacity : Nat) (h : History α) (i : Inbox α) : Prop where
  subscribed : .subscribed i.id i.topics ∈ h
  events : i.closed = false →
    (departures i.id h).map (·.2) ++ i.events = (offers i.id h).map (·.2)
  bound : i.events.length ≤ capacity
  dropped : i.dropped = (gone .lost i.id h).length
  closed : i.closed = true ↔ .closed i.id ∈ h
  empty : i.closed = true → i.events = []

namespace Inbox.Balanced

variable {capacity : Nat} {h : History α} {i : Inbox α}

/-- Nothing has happened to the inbox. -/
theorem other (hb : i.Balanced capacity h) {d : Deed α} (hd : d.inbox? ≠ some i.id) :
    i.Balanced capacity (h ++ [d]) := by
  obtain ⟨ho, hl, hc⟩ := Deed.of_inbox?_ne hd
  have hdepartures : departures i.id (h ++ [d]) = departures i.id h := by
    rw [departures_concat, hl]
    exact List.append_nil _
  have hoffers : offers i.id (h ++ [d]) = offers i.id h := by
    rw [offers_concat, ho]
    exact List.append_nil _
  constructor
  case subscribed => exact List.mem_append_left _ hb.subscribed
  case events => rw [hdepartures, hoffers]; exact hb.events
  case bound => exact hb.bound
  case dropped => rw [gone, hdepartures]; exact hb.dropped
  case closed =>
    rw [hb.closed, mem_concat]
    exact ⟨.inl, fun hm => hm.resolve_right hc.symm⟩
  case empty => exact hb.empty

/-- An open inbox that is not full gets an event. -/
theorem gain (hb : i.Balanced capacity h) (ho : i.closed = false) (hf : i.events.length < capacity)
    (k : Nat) (event : α) :
    Balanced capacity (h ++ [.offered k i.id event none])
      { i with events := i.events ++ [event] } := by
  have hdepartures : departures i.id (h ++ [.offered k i.id event none]) = departures i.id h := by
    simp [departures_concat, Deed.departure?]
  constructor
  case subscribed => exact List.mem_append_left _ hb.subscribed
  case events =>
    intro _
    rw [hdepartures, offers_concat, ← List.append_assoc, hb.events ho]
    simp [Deed.offer?]
  case bound =>
    rw [List.length_append]
    exact hf
  case dropped => rw [gone, hdepartures]; exact hb.dropped
  case closed => simpa using hb.closed
  case empty => exact fun hc => absurd (ho.symm.trans hc) Bool.false_ne_true

/-- A full one loses its oldest event. -/
theorem displace (hb : i.Balanced capacity h) (ho : i.closed = false) {oldest : α} {rest : List α}
    (he : i.events = oldest :: rest) (k : Nat) (event : α) :
    Balanced capacity (h ++ [.offered k i.id event (some oldest)])
      { i with events := rest ++ [event], dropped := i.dropped + 1 } := by
  have hdepartures : departures i.id (h ++ [.offered k i.id event (some oldest)]) =
      departures i.id h ++ [(.lost, oldest)] := by
    simp [departures_concat, Deed.departure?]
  constructor
  case subscribed => exact List.mem_append_left _ hb.subscribed
  case events =>
    intro _
    have hall := hb.events ho
    rw [he] at hall
    rw [hdepartures]
    calc (departures i.id h ++ [(Fate.lost, oldest)]).map (·.2) ++ (rest ++ [event])
      _ = (departures i.id h).map (·.2) ++ oldest :: rest ++ [event] := by simp
      _ = (offers i.id h).map (·.2) ++ [event] := by rw [hall]
      _ = (offers i.id (h ++ [.offered k i.id event (some oldest)])).map (·.2) := by
        simp [offers_concat, Deed.offer?]
  case bound =>
    have hbound := hb.bound
    rw [he] at hbound
    simpa using hbound
  case dropped => simp [gone, hdepartures, hb.dropped]
  case closed => simpa using hb.closed
  case empty => exact fun hc => absurd (ho.symm.trans hc) Bool.false_ne_true

/-- Somebody takes the oldest event. -/
theorem take (hb : i.Balanced capacity h) {event : α} {rest : List α}
    (he : i.events = event :: rest) :
    Balanced capacity (h ++ [.taken i.id event]) { i with events := rest } := by
  have hdepartures : departures i.id (h ++ [.taken i.id event]) =
      departures i.id h ++ [(.taken, event)] := by
    simp [departures_concat, Deed.departure?]
  have ho : i.closed ≠ true := fun hc => by
    rw [hb.empty hc] at he
    cases he
  constructor
  case subscribed => exact List.mem_append_left _ hb.subscribed
  case events =>
    intro hopen
    have hall := hb.events hopen
    rw [he] at hall
    rw [hdepartures]
    calc (departures i.id h ++ [(Fate.taken, event)]).map (·.2) ++ rest
      _ = (departures i.id h).map (·.2) ++ event :: rest := by simp
      _ = (offers i.id h).map (·.2) := hall
      _ = (offers i.id (h ++ [.taken i.id event])).map (·.2) := by
        simp [offers_concat, Deed.offer?]
  case bound =>
    have hbound := hb.bound
    rw [he] at hbound
    exact Nat.le_of_succ_le hbound
  case dropped => simp [gone, hdepartures, hb.dropped]
  case closed => simpa using hb.closed
  case empty => exact fun hc => absurd hc ho

theorem close (hb : i.Balanced capacity h) : i.close.Balanced capacity (h ++ [.closed i.id]) where
  subscribed := List.mem_append_left _ hb.subscribed
  events := nofun
  bound := Nat.zero_le _
  dropped := by
    have hdepartures : departures i.id (h ++ [.closed i.id]) = departures i.id h := by
      simp [departures_concat, Deed.departure?]
    rw [gone, show i.close.id = i.id from rfl, hdepartures]
    exact hb.dropped
  closed := ⟨fun _ => List.mem_append_right _ List.mem_cons_self, fun _ => rfl⟩
  empty _ := rfl

/-- **What a deed does to an inbox is counted.** -/
theorem deed {s : Session α ε} (hb : i.Balanced s.bus.capacity h) {d : Deed α} (hd : d.Fits s)
    (hi : ∃ i', s.bus.inbox? i.id = some i' ∧ i'.unowned = i) :
    (d.onInbox s.bus.capacity i).Balanced s.bus.capacity (h ++ [d]) := by
  obtain ⟨i', hi', rfl⟩ := hi
  by_cases hid : d.inbox? = some i'.unowned.id
  · cases d with
    | offered k id event lost =>
      cases hid
      obtain ⟨j, hj, hopen, rfl⟩ := hd
      cases hi'.symm.trans hj
      rw [Deed.onInbox, if_pos rfl]
      by_cases hfull : s.bus.capacity ≤ i'.events.length
      · -- there is room for one event at least, so a full inbox has an oldest one
        have hne : i'.events ≠ [] :=
          List.ne_nil_of_length_pos (Nat.lt_of_lt_of_le s.bus.capacity_pos hfull)
        obtain ⟨oldest, rest, he⟩ := List.exists_cons_of_ne_nil hne
        have hlength : s.bus.capacity ≤ rest.length + 1 := by rwa [he] at hfull
        have hlost : i'.lost? s.bus.capacity = some oldest := by
          simp [Inbox.lost?, Inbox.losesOn, hopen, hlength, he]
        have hoffer : i'.unowned.offer s.bus.capacity event =
            { i'.unowned with events := rest ++ [event], dropped := i'.dropped + 1 } := by
          simp [Inbox.offer, Inbox.unowned, hopen, hlength, he]
        rw [hlost, hoffer]
        exact hb.displace hopen he k event
      · have hlost : i'.lost? s.bus.capacity = none := by
          simp [Inbox.lost?, Inbox.losesOn, hfull]
        have hoffer : i'.unowned.offer s.bus.capacity event =
            { i'.unowned with events := i'.events ++ [event] } := by
          simp [Inbox.offer, Inbox.unowned, hopen, hfull]
        rw [hlost, hoffer]
        exact hb.gain hopen (Nat.lt_of_not_le hfull) k event
    | taken id event =>
      cases hid
      obtain ⟨j, hj, hhead⟩ := hd
      cases hi'.symm.trans hj
      obtain ⟨rest, he⟩ := List.head?_eq_some_iff.1 hhead
      have hdrop : i'.unowned.events.drop 1 = rest := by rw [Inbox.unowned, he]; rfl
      rw [Deed.onInbox, if_pos rfl, hdrop]
      exact hb.take he
    | closed id =>
      cases hid
      rw [Deed.onInbox, if_pos rfl]
      exact hb.close
    | _ => cases hid
  · rw [hd.onInbox_of_ne (i := i') hi' hid]
    exact hb.other hid

/-- Nothing has happened yet to an inbox that is new. -/
theorem fresh {id : Nat} (hn : ∀ d ∈ h, d.inbox? ≠ some id) (topics : List String) :
    Balanced capacity (h ++ [.subscribed id topics]) { id, topics, owners := 0 } := by
  have hnone : ∀ d ∈ h ++ [.subscribed id topics], d.inbox? ≠ some id := by
    intro d hd
    rcases mem_concat.1 hd with hold | rfl
    · exact hn d hold
    · exact nofun
  have hoffers : offers id (h ++ [.subscribed id topics]) = [] :=
    List.filterMap_eq_nil_iff.2 fun d hd => (Deed.of_inbox?_ne (hnone d hd)).1
  have hdepartures : departures id (h ++ [.subscribed id topics]) = [] :=
    List.filterMap_eq_nil_iff.2 fun d hd => (Deed.of_inbox?_ne (hnone d hd)).2.1
  constructor
  case subscribed => exact List.mem_append_right _ List.mem_cons_self
  case events => rw [hoffers, hdepartures]; exact fun _ => rfl
  case bound => exact Nat.zero_le _
  case dropped => rw [gone, hdepartures]; rfl
  case closed => exact ⟨nofun, fun hc => absurd rfl (hnone _ hc)⟩
  case empty => exact fun _ => rfl

end Inbox.Balanced

/-! ## Runs -/

/-- An inbox is found by its number. -/
theorem Sound.inbox? {h : History α} {w : Threads α ε} (hs : Sound h w) {i : Inbox α}
    (hi : i ∈ w.session.bus.contents) :
    ∃ i', w.session.bus.inbox? i.id = some i' ∧ i'.unowned = i := by
  obtain ⟨j, hj, rfl⟩ := List.mem_map.1 hi
  have hfind : (w.session.bus.inbox? j.unowned.id).isSome = true :=
    List.find?_isSome.2 ⟨j, hj, decide_eq_true rfl⟩
  obtain ⟨i', hi'⟩ := Option.isSome_iff_exists.1 hfind
  obtain ⟨hmem, hid⟩ := State.mem_contents hi'
  exact ⟨i', hi', List.inj_on_of_nodup_map hs.inboxes.1 hmem hi hid⟩

variable {capacity n : Nat} {clock : Clock} {h h₁ h₂ : History α} {w : Threads α ε}

theorem Run.balanced (run : Run (.new capacity clock n) h w) :
    ∀ i ∈ w.session.bus.contents, i.Balanced w.session.bus.capacity h := by
  refine run.invariant_deed (fun h w => ∀ i ∈ w.session.bus.contents,
    i.Balanced w.session.bus.capacity h) nofun (fun h w w' _ hb hm => ?_)
    (fun h w d w' run hb hm hd => ?_)
  · rw [hm.acts.contents, hm.acts.capacity]
    exact hb
  · intro i hi
    rw [hm.acts.contents, Option.elim_some] at hi
    rw [hm.acts.capacity]
    rcases List.mem_append.1 hi with hold | hnew
    · obtain ⟨j, hj, rfl⟩ := List.mem_map.1 hold
      exact (hb j hj).deed hd (run.sound.inbox? hj)
    · cases d with
      | subscribed id topics =>
        rw [Deed.newInboxes, List.mem_singleton] at hnew
        subst hnew
        refine .fresh (fun d' hd' hid => ?_) topics
        have hmem := run.sound.inbox_mem d' hd' id hid
        exact Nat.ne_of_lt (run.sound.inboxes.2 id hmem) hd
      | _ => cases hnew

/-- An inbox that is there, and its history. -/
theorem Run.balanced_of_inbox? (run : Run (.new capacity clock n) h w) {id : Nat} {i : Inbox α}
    (hi : w.session.bus.inbox? id = some i) :
    i.id = id ∧ i.unowned.Balanced (max capacity 1) h := by
  obtain ⟨hmem, hid⟩ := State.mem_contents hi
  exact ⟨hid, run.capacity_eq ▸ run.balanced _ hmem⟩

/-- What an open inbox holds follows from its history. -/
theorem Run.pending_eq (run : Run (.new capacity clock n) h w) {id : Nat} {i : Inbox α}
    (hi : w.session.bus.inbox? id = some i) (ho : i.closed = false) : pending id h = i.events := by
  obtain ⟨rfl, hb⟩ := run.balanced_of_inbox? hi
  have hall : (departures i.id h).map (·.2) ++ i.events = (offers i.id h).map (·.2) := hb.events ho
  rw [pending, ← hall, List.drop_left' (List.length_map ..)]

/-- **An inbox loses an event only when it is full, and then its oldest one.** -/
theorem Run.offered {k id : Nat} {event : α} {lost : Option α}
    (run : Run (.new capacity clock n) (h₁ ++ .offered k id event lost :: h₂) w) :
    .closed id ∉ h₁ ∧
      lost = if max capacity 1 ≤ (pending id h₁).length then (pending id h₁).head? else none := by
  obtain ⟨w₁, -, run₁, -, -, i, hi, hopen, rfl⟩ := run.split
  obtain ⟨hid, hb⟩ := run₁.balanced_of_inbox? hi
  refine ⟨fun hc => ?_, ?_⟩
  · have hclosed : i.closed = true := hb.closed.2 (hid ▸ hc)
    exact Bool.false_ne_true (hopen.symm.trans hclosed)
  · rw [run₁.pending_eq hi hopen, Inbox.lost?, Inbox.losesOn, hopen, run₁.capacity_eq]
    simp

/-- **Somebody who takes an event gets the oldest one.** -/
theorem Run.taken {id : Nat} {event : α}
    (run : Run (.new capacity clock n) (h₁ ++ .taken id event :: h₂) w) :
    .closed id ∉ h₁ ∧ (pending id h₁).head? = some event := by
  obtain ⟨w₁, -, run₁, -, -, i, hi, hhead⟩ := run.split
  obtain ⟨hid, hb⟩ := run₁.balanced_of_inbox? hi
  have hopen : i.closed ≠ true := fun hc => by
    rw [show i.events = [] from hb.empty hc] at hhead
    cases hhead
  refine ⟨fun hc => hopen (hb.closed.2 (hid ▸ hc)), ?_⟩
  rw [run₁.pending_eq hi (eq_false_of_ne_true hopen)]
  exact hhead

/-- Nothing happens to an inbox after it has been closed. -/
theorem Run.silent {id : Nat} (run : Run (.new capacity clock n) (h₁ ++ .closed id :: h₂) w) :
    offers id h₂ = [] ∧ departures id h₂ = [] := by
  have hnone : ∀ d ∈ h₂, d.offer? id = none ∧ d.departure? id = none := by
    intro d hd
    obtain ⟨a, b, rfl⟩ := List.append_of_mem hd
    have hmem : Deed.closed id ∈ h₁ ++ .closed id :: a :=
      List.mem_append_right _ List.mem_cons_self
    have run' : Run (.new capacity clock n) ((h₁ ++ .closed id :: a) ++ d :: b) w := by
      rwa [List.append_assoc]
    cases d with
    | offered k id' event lost =>
      have hne : id' ≠ id := fun he => run'.offered.1 (he ▸ hmem)
      simp [Deed.offer?, Deed.departure?, hne]
    | taken id' event =>
      have hne : id' ≠ id := fun he => run'.taken.1 (he ▸ hmem)
      simp [Deed.offer?, Deed.departure?, hne]
    | _ => exact ⟨rfl, rfl⟩
  exact ⟨List.filterMap_eq_nil_iff.2 fun d hd => (hnone d hd).1,
    List.filterMap_eq_nil_iff.2 fun d hd => (hnone d hd).2⟩

/-! ## Where the events come from -/

/-- An emit finds inboxes that have subscribed to its topic, each once. -/
theorem Run.audience {k : Nat} {within : List Nat} {topic : String} {event : α}
    {audience listeners : List Nat}
    (run : Run (.new capacity clock n)
      (h₁ ++ .started k within topic event audience listeners :: h₂) w) :
    audience.Nodup ∧ ∀ id ∈ audience, ∃ topics, .subscribed id topics ∈ h₁ ∧ topic ∈ topics := by
  obtain ⟨w₁, -, run₁, -, -, -, rfl, -⟩ := run.split
  refine ⟨?_, fun id hid => ?_⟩
  · have hsub : (w₁.session.bus.inboxes.map (·.id)) = w₁.session.bus.contents.map (·.id) := by
      rw [State.contents, List.map_map]
      rfl
    have hnodup := run₁.sound.inboxes.1
    rw [← hsub] at hnodup
    exact hnodup.sublist (List.filter_sublist.map _)
  · obtain ⟨i, hi, rfl⟩ := List.mem_map.1 hid
    obtain ⟨hmem, hwants⟩ := List.mem_filter.1 hi
    have hb := run₁.balanced i.unowned (List.mem_map_of_mem hmem)
    refine ⟨i.topics, hb.subscribed, ?_⟩
    simp only [Inbox.wants, Bool.and_eq_true, List.contains_iff_mem] at hwants
    exact hwants.2

/-- An emit offers its event to an inbox that it has found, and to none twice. -/
theorem Threads.Moves.of_offered {w' : Threads α ε} {k id : Nat} {event : α} {lost : Option α}
    (run : Run (.new capacity clock n) h w) (hm : w.Moves (some (.offered k id event lost)) w') :
    ∃ within topic audience listeners, .started k within topic event audience listeners ∈ h ∧
      id ∈ audience ∧ id ∉ served (deedsOf k h) := by
  obtain ⟨f, hf, rfl, rfl, targets, ht⟩ := hm.frame_of_offered
  obtain ⟨within, topic, listeners, done, hlog, hp⟩ := run.emits.frames f hf
  have hstart : .started f.number within topic f.event f.audience listeners ∈ h :=
    (mem_deedsOf.1 (hlog ▸ List.mem_cons_self)).1
  have hserved := hp.served
  rw [ht] at hserved
  refine ⟨within, topic, f.audience, listeners, hstart, ?_, ?_⟩
  · rw [← hserved]
    exact List.mem_append_right _ List.mem_cons_self
  · obtain ⟨a, b, rfl⟩ := List.append_of_mem hstart
    have hnodup := run.audience.1
    rw [← hserved, List.nodup_middle, List.nodup_cons] at hnodup
    rw [hlog]
    exact fun hin => hnodup.1 (List.mem_append_left _ hin)

theorem mem_offers {id k : Nat} {event : α} :
    (k, event) ∈ offers id h ↔ ∃ lost, .offered k id event lost ∈ h := by
  rw [offers, List.mem_filterMap]
  constructor
  · rintro ⟨d, hd, ho⟩
    cases d with
    | offered k' id' event' lost =>
      rw [Deed.offer?] at ho
      split at ho
      · cases ho
        subst id
        exact ⟨lost, hd⟩
      · cases ho
    | _ => cases ho
  · rintro ⟨lost, hd⟩
    exact ⟨_, hd, if_pos rfl⟩

theorem mem_served_of_offered {k id : Nat} {event : α} {lost : Option α}
    (hd : .offered k id event lost ∈ h) : id ∈ served (deedsOf k h) :=
  List.mem_filterMap.2 ⟨_, mem_deedsOf.2 ⟨hd, rfl⟩, rfl⟩

/-! ## Counting -/

/-- The events that a deed makes an inbox lose. -/
def Deed.displaced : Deed α → Nat
  | offered _ _ _ lost => lost.isSome.toNat
  | _ => 0

/-- The events lost, as an emit that returns tells it. -/
def Deed.reported : Deed α → Nat
  | returned _ delivery => delivery.dropped
  | _ => 0

theorem Deed.uncounted_of_emit? {d : Deed α} (h : d.emit? = none) :
    d.reported = 0 ∧ d.displaced = 0 := by
  cases d <;> simp_all [emit?, reported, displaced]

/-- The events lost, as all emits that have returned have told it. -/
def reported (h : History α) : Nat := (h.map Deed.reported).sum

/-- Changing one of several things that have names of their own. -/
theorem sum_map_update {ι : Type} {l : List ι} {key : ι → Nat} (hn : (l.map key).Nodup) {i : ι}
    (hi : i ∈ l) (f : ι → ι) (g : ι → Nat) :
    (l.map fun j => g (if key j = key i then f j else j)).sum + g i = (l.map g).sum + g (f i) := by
  obtain ⟨a, b, rfl⟩ := List.append_of_mem hi
  rw [List.map_append, List.map_cons, List.nodup_middle, List.nodup_cons, ← List.map_append] at hn
  have hne : ∀ j ∈ a ++ b, g (if key j = key i then f j else j) = g j := by
    intro j hj
    have hkey : key j ≠ key i := fun he => hn.1 (he ▸ List.mem_map_of_mem hj)
    rw [if_neg hkey]
  have ha := List.map_congr_left fun j hj => hne j (List.mem_append_left b hj)
  have hb := List.map_congr_left fun j hj => hne j (List.mem_append_right a hj)
  simp only [List.map_append, List.map_cons, List.sum_append, List.sum_cons, ha, hb, if_true]
  omega

theorem State.dropped_offer {β : Type} (s : State α β) (event : α) (i : Inbox α) :
    (i.unowned.offer s.capacity event).dropped = i.dropped + (i.lost? s.capacity).isSome.toNat := by
  rw [s.isSome_lost?]
  by_cases hc : i.closed = true
  · simp [Inbox.offer, Inbox.losesOn, Inbox.unowned, hc]
  · by_cases hf : s.capacity ≤ i.events.length <;>
      simp [Inbox.offer, Inbox.losesOn, Inbox.unowned, hc, hf]

/-- What an inbox counts as lost, a deed has made it lose. -/
theorem Sound.sum_dropped {w' : Threads α ε} (hs : Sound h w) {d : Deed α}
    (hm : w.Moves (some d) w') (hd : d.Fits w.session) :
    (w'.session.bus.contents.map (·.dropped)).sum =
      (w.session.bus.contents.map (·.dropped)).sum + d.displaced := by
  have hnew : (d.newInboxes.map (·.dropped)).sum = 0 := by
    cases d <;> rfl
  rw [hm.acts.contents, Option.elim_some, List.map_append, List.sum_append, hnew, List.map_map]
  by_cases ho : ∃ k id event lost, d = .offered k id event lost
  · obtain ⟨k, id, event, lost, rfl⟩ := ho
    obtain ⟨i, hi, -, rfl⟩ := hd
    obtain ⟨hmem, rfl⟩ := State.mem_contents hi
    have hsum := sum_map_update hs.inboxes.1 hmem (·.offer w.session.bus.capacity event) (·.dropped)
    rw [w.session.bus.dropped_offer] at hsum
    have hi' : i.unowned.dropped = i.dropped := rfl
    show (w.session.bus.contents.map fun j : Inbox α => (if j.id = i.unowned.id then
      j.offer w.session.bus.capacity event else j).dropped).sum + 0 = _
    rw [Deed.displaced]
    omega
  · have hsame : ∀ i ∈ w.session.bus.contents,
        (d.onInbox w.session.bus.capacity i).dropped = i.dropped := by
      intro i hi
      obtain ⟨i', hi', rfl⟩ := hs.inbox? hi
      by_cases hid : d.inbox? = some i'.unowned.id
      · cases d with
        | offered k id event lost => exact absurd ⟨k, id, event, lost, rfl⟩ ho
        | taken | closed => rw [Deed.onInbox]; split <;> rfl
        | _ => cases hid
      · rw [hd.onInbox_of_ne (i := i') hi' hid]
    have hzero : d.displaced = 0 := by
      cases d with
      | offered k id event lost => exact absurd ⟨k, id, event, lost, rfl⟩ ho
      | _ => rfl
    rw [hzero]
    exact congrArg (·.sum + 0) (List.map_congr_left hsame)

/-- What an emit makes inboxes lose, it tells when it returns. -/
theorem Threads.Moves.sum_frames {w' : Threads α ε} {d : Option (Deed α)} (hm : w.Moves d w') :
    d.elim 0 Deed.reported + (w'.frames.map (·.delivery.dropped)).sum =
      (w.frames.map (·.delivery.dropped)).sum + d.elim 0 Deed.displaced := by
  obtain ⟨l₁, l₂, idle, idle', stack, stack', hf, hf', hadv⟩ := hm.frames
  simp only [hf, hf', List.map_append, List.sum_append]
  cases hadv with
  | other _ hd =>
    cases d with
    | none => exact Nat.zero_add _
    | some d =>
      obtain ⟨hr, hl⟩ := Deed.uncounted_of_emit? hd
      simp [hr, hl]
  | started => simp [Deed.reported, Deed.displaced]
  | offered lost ht =>
    simp [Deed.reported, Deed.displaced]
    omega
  | declined ht => simp [Deed.reported, Deed.displaced]
  | called ht hc hr => simp [Deed.reported, Deed.displaced]
  | passed ht hc hr => simp [Deed.reported, Deed.displaced]
  | left ht hc => simp
  | returned ht hc hr =>
    simp [Deed.reported, Deed.displaced]
    omega

/-- The emits that have returned and those that are under way count what the inboxes have lost. -/
theorem Run.sum_dropped (run : Run (.new capacity clock n) h w) :
    reported h + (w.frames.map (·.delivery.dropped)).sum =
      (w.session.bus.contents.map (·.dropped)).sum := by
  refine run.invariant_deed (fun h w => reported h + (w.frames.map (·.delivery.dropped)).sum =
    (w.session.bus.contents.map (·.dropped)).sum) ?_ (fun h w w' _ hsum hm => ?_)
    (fun h w d w' run hsum hm hd => ?_)
  · rw [Threads.frames_new]
    rfl
  · have hframes := hm.sum_frames
    rw [hm.acts.contents, Option.elim_none, ← hsum]
    simp only [Option.elim_none] at hframes
    omega
  · have hframes := hm.sum_frames
    rw [run.sound.sum_dropped hm hd, ← hsum, reported, List.map_append, List.sum_append]
    simp only [Option.elim_some] at hframes
    simp only [reported, List.map_cons, List.map_nil, List.sum_cons, List.sum_nil]
    omega

/-- An emit that has returned has offered its event to every inbox that it had found, except to
those that were closed meanwhile. -/
theorem Run.offered_of_returned {k id : Nat} {within : List Nat} {topic : String} {event : α}
    {audience listeners : List Nat} {delivery : Delivery}
    (run : Run (.new capacity clock n)
      (h₁ ++ .started k within topic event audience listeners :: h₂) w)
    (hr : .returned k delivery ∈ h₂) (hid : id ∈ audience) :
    (k, event) ∈ offers id h₂ ∨
      .closed id ∈ h₁ ++ .started k within topic event audience listeners :: h₂ := by
  have hcourse := run.course
  have hserved := (hcourse.returned delivery (mem_deedsOf.2 ⟨hr, rfl⟩)).1
  rw [← hserved] at hid
  obtain ⟨d, hd, hdid⟩ := List.mem_filterMap.1 hid
  obtain ⟨hmem, hk⟩ := mem_deedsOf.1 hd
  have hserves := hcourse.deeds d hd
  cases d with
  | offered k' id' event' lost =>
    cases hdid
    cases hk
    obtain rfl : event' = event := hserves.resolve_right nofun
    exact .inl (mem_offers.2 ⟨lost, hmem⟩)
  | declined k' id' event' =>
    cases hdid
    refine .inr ?_
    obtain ⟨a, b, rfl⟩ := List.append_of_mem hmem
    obtain ⟨topics, hsub, -⟩ := run.audience.2 id (hserved ▸ hid)
    rw [← List.cons_append, ← List.append_assoc] at run
    obtain ⟨w₁, -, run₁, -, -, hfits⟩ := run.split
    obtain ⟨i, hi, rfl⟩ :=
      List.mem_map.1 (run₁.sound.subscribed_mem id topics (List.mem_append_left _ hsub))
    obtain ⟨i', hi', rfl⟩ := run₁.sound.inbox? hi
    have hclosed := (run₁.balanced _ hi).closed.1 (hfits i' hi')
    rw [← List.cons_append, ← List.append_assoc]
    exact List.mem_append_left _ hclosed
  | _ => cases hdid

/-- The law of conservation, after a history. -/
structure Conserved (capacity : Nat) (h : History α) (w : Threads α ε) : Prop where
  /-- What an open inbox has been offered is what has left it and then what it holds. -/
  balance : ∀ id i, w.session.bus.inbox? id = some i → i.closed = false →
    (departures id h).map (·.2) ++ i.events = (offers id h).map (·.2)
  /-- What has been taken has been offered, in the same order and each once. -/
  consumed : ∀ id i, w.session.bus.inbox? id = some i → i.closed = false →
    (gone .taken id h).Sublist ((offers id h).map (·.2))
  bound : ∀ id i, w.session.bus.inbox? id = some i → i.events.length ≤ max capacity 1
  dropped : ∀ id i, w.session.bus.inbox? id = some i → i.dropped = (gone .lost id h).length
  /-- An inbox loses an event only to get another one when it is full, and then the oldest. -/
  oldest : ∀ h₁ h₂ k id event lost, h = h₁ ++ .offered k id event lost :: h₂ →
    lost = if max capacity 1 ≤ (pending id h₁).length then (pending id h₁).head? else none
  /-- Whoever takes an event gets the oldest. -/
  next : ∀ h₁ h₂ id event, h = h₁ ++ .taken id event :: h₂ → (pending id h₁).head? = some event
  closed : ∀ id i, w.session.bus.inbox? id = some i → .closed id ∈ h →
    i.closed = true ∧ i.events = []
  /-- An inbox that has been closed is offered nothing any more, and nothing leaves it. -/
  silent : ∀ h₁ h₂ id, h = h₁ ++ .closed id :: h₂ → offers id h₂ = [] ∧ departures id h₂ = []
  /-- An inbox is offered events of emits on its topics only, and none of them twice. -/
  source : ∀ h₁ h₂ k id event lost, h = h₁ ++ .offered k id event lost :: h₂ →
    (∃ within topic audience listeners topics,
      .started k within topic event audience listeners ∈ h₁ ∧ id ∈ audience ∧
        .subscribed id topics ∈ h₁ ∧ topic ∈ topics) ∧
      k ∉ (offers id h₁).map (·.1)
  /-- An emit that has returned has offered its event to all inboxes that it had found and that have
  not been closed. -/
  reach : ∀ h₁ h₂ k within topic event audience listeners delivery,
    h = h₁ ++ .started k within topic event audience listeners :: h₂ → .returned k delivery ∈ h₂ →
      ∀ id ∈ audience, (k, event) ∈ offers id h ∨ .closed id ∈ h
  /-- The next emit to start finds the inboxes that are on its topic and that somebody has. -/
  finds : ∀ label w' k within topic event audience listeners, w.step label = some w' →
    w.deed? label = some (.started k within topic event audience listeners) →
      audience =
        (w.session.bus.inboxes.filter fun i => i.owners ≠ 0 && i.topics.contains topic).map (·.id)
  /-- What emits have reported as lost, the inboxes have lost. -/
  sum : reported h + (w.frames.map (·.delivery.dropped)).sum =
    (w.session.bus.inboxes.map (·.dropped)).sum

/-- **No event is lost without being counted, and none comes twice.** -/
theorem conservation_of_run (run : Run (.new capacity clock n) h w) : Conserved capacity h w := by
  constructor
  case balance =>
    intro id i hi ho
    obtain ⟨rfl, hb⟩ := run.balanced_of_inbox? hi
    exact hb.events ho
  case consumed =>
    intro id i hi ho
    obtain ⟨rfl, hb⟩ := run.balanced_of_inbox? hi
    have hsplit : (departures i.id h).map (·.2) <+: (offers i.id h).map (·.2) := ⟨_, hb.events ho⟩
    exact (List.filter_sublist.map _).trans hsplit.sublist
  case bound => exact fun id i hi => (run.balanced_of_inbox? hi).2.bound
  case dropped =>
    intro id i hi
    obtain ⟨rfl, hb⟩ := run.balanced_of_inbox? hi
    exact hb.dropped
  case oldest =>
    rintro h₁ h₂ k id event lost rfl
    exact run.offered.2
  case next =>
    rintro h₁ h₂ id event rfl
    exact run.taken.2
  case closed =>
    intro id i hi hc
    obtain ⟨rfl, hb⟩ := run.balanced_of_inbox? hi
    have hclosed := hb.closed.2 hc
    exact ⟨hclosed, hb.empty hclosed⟩
  case silent =>
    rintro h₁ h₂ id rfl
    exact run.silent
  case source =>
    rintro h₁ h₂ k id event lost rfl
    -- the emit has started before, and has served the inbox only now
    obtain ⟨w₁, w₂, run₁, run₂, hm, -⟩ := run.split
    obtain ⟨within, topic, audience, listeners, hstart, hid, hnot⟩ := hm.of_offered run₁
    obtain ⟨a, b, rfl⟩ := List.append_of_mem hstart
    obtain ⟨topics, hsub, htopic⟩ := run₁.audience.2 id hid
    refine ⟨⟨within, topic, audience, listeners, topics, hstart, hid,
      List.mem_append_left _ hsub, htopic⟩, fun hin => ?_⟩
    obtain ⟨⟨k', event'⟩, hp, rfl⟩ := List.mem_map.1 hin
    obtain ⟨lost', hd⟩ := mem_offers.1 hp
    exact hnot (mem_served_of_offered hd)
  case reach =>
    rintro h₁ h₂ k within topic event audience listeners delivery rfl hr id hid
    refine (run.offered_of_returned hr hid).imp_left fun hin => ?_
    obtain ⟨lost, hd⟩ := mem_offers.1 hin
    exact mem_offers.2 ⟨lost, List.mem_append_right _ (List.mem_cons_of_mem _ hd)⟩
  case finds =>
    intro label w' k within topic event audience listeners hstep hd
    exact (Threads.fits_of_deed? hd).2.1
  case sum =>
    rw [run.sum_dropped, State.contents, List.map_map]
    rfl

/-- An inbox for one event, which loses the first of two and gives the second one away. -/
theorem conservation_of_run_full :
    ∃ (h : History Nat) (w : Threads Nat Unit), Run (.new 1 {} 1) h w ∧
      offers 1 h = [(0, 7), (1, 8)] ∧ departures 1 h = [(.lost, 7), (.taken, 8)] ∧
      reported h = 1 ∧ Conserved 1 h w := by
  let program : Reaction Nat Unit :=
    .call (.subscribe "a" ["t"]) fun _ => .call (.emit "t" 7) fun _ => .call (.emit "t" 8) fun _ =>
      .call (.tryNext "a") fun _ => .done
  obtain ⟨h, w, run, ho, hd, hr⟩ := Run.exists_of_play (.new 1 {} 1)
    (.begin 0 program :: List.replicate 8 (.step 0))
    (fun h _ => offers 1 h = [(0, 7), (1, 8)] ∧ departures 1 h = [(.lost, 7), (.taken, 8)] ∧
      reported h = 1) (by decide)
  exact ⟨h, w, run, ho, hd, hr, conservation_of_run run⟩

end ScriptHost.Bus
