import ScriptHost.Cache
import ScriptHost.Proofs.Keyed
import Mathlib.Data.Set.Card

/-!
# What can be seen of a cache

A cache keeps entries that have expired until somebody comes across them.  Nobody can tell: every
result is that of a map whose entries are gone as soon as their time is over, and sweeping, by a
call or in the background, changes nothing that can be seen.

* `Reference` — such a map, which is looked at only through `Reference.atTime`.
* `contents`, `visible` — what is in a cache, and what can be seen of it at a time.
* `Agrees` — a cache and a map that look the same from a time on.  Calls keep it
  (`Agrees.call`), and so does all that happens without one (`Agrees.step`).
* `results_eq_reference` — the results of any course of calls and sweeps are those of the map.

The clock is read once for each call.  A call that reads it again, some milliseconds later, when it
stores the expiry, is a call with a time to live that is longer by so many
(`expiry_of_later_reading`).
-/

set_option autoImplicit false

namespace ScriptHost.Cache

variable {α : Type}

/-! ## The reference -/

/-- A map from keys to entries. -/
abbrev Reference (α : Type) := String → Option (Entry α)

/-- The expiry of the entry lies in the future, or it has none. -/
def Entry.Lasts (now : Nat) (e : Entry α) : Prop := ∀ instant ∈ e.expiresAt, now < instant

theorem Entry.isLive_iff {now : Nat} {e : Entry α} : e.isLive now = true ↔ e.Lasts now := by
  obtain ⟨value, _ | instant⟩ := e <;> simp [isLive, Lasts]

instance (now : Nat) (e : Entry α) : Decidable (e.Lasts now) :=
  decidable_of_iff _ Entry.isLive_iff

theorem Entry.Lasts.of_le {now later : Nat} {e : Entry α} (h : e.Lasts later) (hle : now ≤ later) :
    e.Lasts now :=
  fun instant hi => Nat.lt_of_le_of_lt hle (h instant hi)

namespace Reference

/-- The map at a time, when only the entries that last are there. -/
def atTime (now : Nat) (m : Reference α) : Reference α :=
  fun key => (m key).filter fun e => e.Lasts now

/-- When what is stored now with a time to live expires. -/
def due (now : Nat) (ttl : Option Nat) : Option Nat :=
  ttl.bind fun ms => if 0 < ms ∧ now + ms < Deadline.horizon then some (now + ms) else none

/-- A call on a map in which nothing has expired. -/
noncomputable def call (now : Nat) (m : Reference α) : Call α → Reply α × Reference α
  | .set key value ttl => (.stored, Function.update m key (some ⟨value, due now ttl⟩))
  | .get key => (.value ((m key).map (·.value)), m)
  | .has key => (.flag (m key).isSome, m)
  | .expire key ttl =>
    (.flag (m key).isSome,
      Function.update m key ((m key).map fun e => { e with expiresAt := due now ttl }))
  | .remove key => (.value ((m key).map (·.value)), Function.update m key none)
  | .size => (.count {key | (m key).isSome}.ncard, m)
  | .sweep => (.count 0, m)

/-- The results of calls, each at its time. -/
noncomputable def results : Reference α → List (Clock × Call α) → List (Reply α)
  | _, [] => []
  | m, (c, call) :: rest =>
    let served := (m.atTime c.now).call c.now call
    served.1 :: results served.2 rest

theorem atTime_atTime {now later : Nat} (h : now ≤ later) (m : Reference α) :
    (m.atTime now).atTime later = m.atTime later := by
  funext key
  rw [atTime, atTime, Option.filter_filter, atTime]
  congr 1
  funext e
  by_cases hl : e.Lasts later
  · rw [decide_eq_true hl, decide_eq_true (hl.of_le h), Bool.and_self]
  · rw [decide_eq_false hl, Bool.and_false]

theorem atTime_update (now : Nat) (m : Reference α) (key : String) (o : Option (Entry α)) :
    atTime now (Function.update m key o) =
      Function.update (m.atTime now) key (o.filter fun e => e.Lasts now) := by
  funext k
  by_cases hk : k = key
  · subst hk
    rw [atTime, Function.update_self, Function.update_self]
  · rw [atTime, Function.update_of_ne hk, Function.update_of_ne hk, atTime]

end Reference

/-! ## Courses of calls and sweeps -/

/-- What can happen to a cache. -/
inductive Step (α : Type) where
  | call (c : Call α)
  | startSweeper (interval : Nat)
  | stopSweeper
  /-- The sweeper in the background does what has become due. -/
  | catchUp

/-- The call, if the step is one; a sweep is none, as it is there for its effect alone. -/
def Step.call? : Step α → Option (Call α)
  | call .sweep => none
  | call c => some c
  | _ => none

/-- What a step answers, if it is a call, and what it leaves. -/
def step (c : Clock) (cache : Cache α) (s : Step α) : Option (Reply α) × Cache α :=
  (s.call?.map fun call => (cache.call c call).1,
    match s with
    | .call call => (cache.call c call).2
    | .startSweeper interval => (cache.startSweeper c interval).toOption.getD cache
    | .stopSweeper => cache.stopSweeper
    | .catchUp => cache.catchUp c)

/-- The results of the calls in a course of steps, each at its time. -/
def results : Cache α → List (Clock × Step α) → List (Reply α)
  | _, [] => []
  | cache, (c, s) :: rest => (cache.step c s).1.toList ++ results (cache.step c s).2 rest

/-- The calls in a course of steps. -/
def calls (course : List (Clock × Step α)) : List (Clock × Call α) :=
  course.filterMap fun (c, s) => s.call?.map (c, ·)

/-- No call reads an earlier time than what came before it.  A sweep may, if calls have overtaken it
since it read the clock. -/
def InOrder (course : List (Clock × Step α)) : Prop :=
  course.Pairwise fun earlier later => later.2.call?.isSome → earlier.1.now ≤ later.1.now

/-! ## What is in a cache -/

/-- A key has one entry at most. -/
def Sound (cache : Cache α) : Prop := Keyed.Distinct cache.entries

/-- What a cache holds under a key. -/
def contents (cache : Cache α) : Reference α := fun key => cache.entries.lookup key

/-- What can be seen of a cache at a time. -/
def visible (now : Nat) (cache : Cache α) : Reference α := cache.contents.atTime now

theorem sound_erase {cache : Cache α} (h : cache.Sound) (key : String) : (cache.erase key).Sound :=
  h.filter _

theorem contents_erase {cache : Cache α} (h : cache.Sound) (key : String) :
    (cache.erase key).contents = Function.update cache.contents key none := by
  funext k
  by_cases hk : k = key
  · subst hk
    rw [Function.update_self]
    exact Keyed.lookup_filter_eq_none h fun _ _ => decide_eq_false (not_not_intro rfl)
  · rw [Function.update_of_ne hk]
    exact Keyed.lookup_filter_eq_self h fun _ _ => decide_eq_true hk

theorem sound_put {cache : Cache α} (h : cache.Sound) (key : String) (e : Entry α) :
    (cache.put key e).Sound := by
  rw [Sound, Keyed.Distinct, put, List.map_cons, List.nodup_cons]
  refine ⟨fun hm => ?_, sound_erase h key⟩
  obtain ⟨p, hp, hkey⟩ := List.mem_map.1 hm
  exact of_decide_eq_true (List.mem_filter.1 hp).2 hkey

theorem contents_put {cache : Cache α} (h : cache.Sound) (key : String) (e : Entry α) :
    (cache.put key e).contents = Function.update cache.contents key (some e) := by
  funext k
  rw [contents, put, List.lookup_cons]
  by_cases hk : k = key
  · subst hk
    rw [beq_self_eq_true, Function.update_self]
  · have herase := congrFun (contents_erase h key) k
    rw [Function.update_of_ne hk, contents] at herase
    rw [beq_eq_false_iff_ne.2 hk, Function.update_of_ne hk, ← herase]

theorem live_eq (now : Nat) (cache : Cache α) :
    cache.live now = cache.entries.filter fun p => p.2.Lasts now :=
  List.filter_congr fun _ _ => Bool.eq_iff_iff.2 (by rw [Entry.isLive_iff, decide_eq_true_iff])

/-- A sweep leaves what can be seen at its time. -/
theorem contents_live {cache : Cache α} (h : cache.Sound) (now : Nat)
    (sweeper : Option (Nat × Nat)) :
    contents { entries := cache.live now, sweeper } = cache.visible now := by
  funext key
  rw [contents, live_eq, Keyed.lookup_filter h]
  rfl

/-- Looking a key up finds what can be seen, and evicts only what cannot. -/
theorem look_spec {cache : Cache α} (h : cache.Sound) (now : Nat) (key : String) :
    (cache.look now key).1 = cache.visible now key ∧ (cache.look now key).2.Sound ∧
      (cache.look now key).2.visible now = cache.visible now := by
  have hkey : cache.visible now key =
      (cache.entries.lookup key).filter fun e => e.Lasts now := rfl
  rw [look]
  split
  · rename_i hnone
    rw [hnone] at hkey
    exact ⟨hkey.symm, h, rfl⟩
  · rename_i e hsome
    rw [hsome, Option.filter_some] at hkey
    split
    · rename_i hl
      rw [if_pos (decide_eq_true (Entry.isLive_iff.1 hl))] at hkey
      exact ⟨hkey.symm, h, rfl⟩
    · rename_i hl
      rw [if_neg fun hd => hl (Entry.isLive_iff.2 (of_decide_eq_true hd))] at hkey
      refine ⟨hkey.symm, sound_erase h key, ?_⟩
      rw [visible, contents_erase h, Reference.atTime_update, Option.filter_none, ← hkey]
      exact Function.update_eq_self ..

theorem length_live {cache : Cache α} (h : cache.Sound) (now : Nat) :
    (cache.live now).length = {key | (cache.visible now key).isSome}.ncard := by
  have hnodup : ((cache.live now).map (·.1)).Nodup := h.filter _
  have hset : {key | (cache.visible now key).isSome} =
      ((cache.live now).map (·.1)).toFinset := by
    ext key
    rw [← contents_live h now none, List.coe_toFinset]
    show ((cache.live now).lookup key).isSome = true ↔ key ∈ (cache.live now).map (·.1)
    rw [Option.isSome_iff_ne_none, Ne, Keyed.lookup_eq_none, not_not]
  rw [hset, Set.ncard_coe_finset, List.toFinset_card_of_nodup hnodup, List.length_map]

/-! ## When an entry expires -/

theorem expiry_eq (c : Clock) (ttl : Option Nat) : expiry c ttl = Reference.due c.now ttl := by
  rcases ttl with _ | _ | ms
  · rfl
  · rfl
  · show (Deadline.after c (ms + 1)).at? = _
    rw [Deadline.after, Reference.due, Option.bind_some]
    split
    · rename_i h
      rw [if_pos ⟨Nat.succ_pos ms, h⟩]
      rfl
    · rename_i h
      rw [if_neg fun h' => h h'.2]
      rfl

/-- Reading the clock later, to store the expiry, is asking for a longer time to live. -/
theorem expiry_of_later_reading (c : Clock) {ttl : Nat} (h : 0 < ttl) (ms : Nat) :
    expiry (c.pass ms) (some ttl) = expiry c (some (ttl + ms)) := by
  simp only [expiry_eq, Reference.due, Clock.pass, Option.bind_some, h, true_and,
    Nat.add_pos_left h ms, Nat.add_assoc, Nat.add_comm ms ttl]

/-! ## A cache against the reference -/

/-- The cache looks like the map from this time on. -/
structure Agrees (now : Nat) (cache : Cache α) (m : Reference α) : Prop where
  sound : cache.Sound
  visible : cache.visible now = m.atTime now

namespace Agrees

variable {now later : Nat} {cache : Cache α} {m : Reference α}

theorem mono (h : Agrees now cache m) (hle : now ≤ later) : Agrees later cache m where
  sound := h.sound
  visible := by
    rw [Cache.visible, ← Reference.atTime_atTime hle, ← Reference.atTime_atTime hle m,
      ← h.visible, Cache.visible]

/-- A change of one entry on both sides. -/
theorem update (h : Agrees now cache m) {cache' : Cache α} (hs : cache'.Sound) {key : String}
    {o : Option (Entry α)}
    (hc : cache'.visible now = Function.update (cache.visible now) key
      (o.filter fun e => e.Lasts now)) :
    Agrees now cache' (Function.update (m.atTime now) key o) where
  sound := hs
  visible := by
    rw [hc, Reference.atTime_update, Reference.atTime_atTime (Nat.le_refl now), h.visible]

theorem put (h : Agrees now cache m) (key : String) (e : Entry α) :
    Agrees now (cache.put key e) (Function.update (m.atTime now) key (some e)) :=
  h.update (sound_put h.sound key e) <| by
    rw [Cache.visible, contents_put h.sound, Reference.atTime_update, Cache.visible]

theorem erase (h : Agrees now cache m) (key : String) :
    Agrees now (cache.erase key) (Function.update (m.atTime now) key none) :=
  h.update (sound_erase h.sound key) <| by
    rw [Cache.visible, contents_erase h.sound, Reference.atTime_update, Cache.visible]

/-- Looking a key up finds what the map has, and leaves a cache that looks the same. -/
theorem look (h : Agrees now cache m) (key : String) :
    (cache.look now key).1 = m.atTime now key ∧
      Agrees now (cache.look now key).2 (m.atTime now) := by
  obtain ⟨hfound, hsound, hsame⟩ := look_spec h.sound now key
  refine ⟨by rw [hfound, h.visible], hsound, ?_⟩
  rw [hsame, h.visible, Reference.atTime_atTime (Nat.le_refl now)]

/-- **One call.**  At the time from which a cache looks like the map, a call on either has the same
result, and they go on looking the same. -/
theorem call {c : Clock} (h : Agrees c.now cache m) {call : Call α} (hcall : call ≠ .sweep) :
    (cache.call c call).1 = ((m.atTime c.now).call c.now call).1 ∧
      Agrees c.now (cache.call c call).2 ((m.atTime c.now).call c.now call).2 := by
  have hfirst (key : String) := (h.look key).1
  have hlook (key : String) := (h.look key).2
  cases call with
  | set key value ttl =>
    rw [Cache.call, expiry_eq]
    exact ⟨rfl, h.put key _⟩
  | get key =>
    refine ⟨?_, hlook key⟩
    simp only [Cache.call, Reference.call, hfirst]
  | has key =>
    refine ⟨?_, hlook key⟩
    simp only [Cache.call, Reference.call, hfirst]
  | expire key ttl =>
    rw [Cache.call, Reference.call, expiry_eq, ← hfirst]
    rcases hl : cache.look c.now key with ⟨_ | e, cache'⟩
    · have hnone := hfirst key
      have hagrees := hlook key
      rw [hl] at hnone hagrees
      have hself : Function.update (m.atTime c.now) key none = m.atTime c.now := by
        rw [show none = m.atTime c.now key from hnone, Function.update_eq_self]
      rw [Option.map_none, hself]
      exact ⟨rfl, hagrees⟩
    · have hagrees := (hlook key).put key { e with expiresAt := Reference.due c.now ttl }
      rw [hl, Reference.atTime_atTime (Nat.le_refl _)] at hagrees
      exact ⟨rfl, hagrees⟩
  | remove key =>
    refine ⟨?_, h.erase key⟩
    simp only [Cache.call, Reference.call, hfirst]
  | size =>
    refine ⟨?_, ⟨h.sound, ?_⟩⟩
    · simp only [Cache.call, Reference.call, length_live h.sound, h.visible]
    · exact h.visible.trans (Reference.atTime_atTime (Nat.le_refl _) m).symm
  | sweep => exact absurd rfl hcall

/-- A sweep, at whatever time before, is not seen. -/
theorem swept (h : Agrees later cache m) (hle : now ≤ later) (sweeper : Option (Nat × Nat)) :
    Agrees later { entries := cache.live now, sweeper } m where
  sound := h.sound.filter _
  visible := by
    rw [Cache.visible, contents_live h.sound, Cache.visible, Reference.atTime_atTime hle]
    exact h.visible

/-- **What happens without a call** is not seen from then on. -/
theorem quiet {c : Clock} {s : Step α} (h : Agrees later cache m) (hle : c.now ≤ later)
    (hs : s.call? = none) : Agrees later (cache.step c s).2 m := by
  cases s with
  | call call =>
    cases call with
    | sweep => exact h.swept hle cache.sweeper
    | set | get | has | expire | remove | size => cases hs
  | startSweeper interval =>
    simp only [step, startSweeper]
    split
    · exact h
    · exact ⟨h.sound, h.visible⟩
  | stopSweeper => exact ⟨h.sound, h.visible⟩
  | catchUp =>
    simp only [step, catchUp]
    split
    · exact h
    · rename_i interval due _
      split
      · rename_i hdue
        have hlast : due + (c.now - due) / interval * interval ≤ c.now := by
          have := Nat.div_mul_le_self (c.now - due) interval
          omega
        exact h.swept (Nat.le_trans hlast hle) _
      · exact h

end Agrees

/-! ## Whole courses -/

theorem Step.eq_call {s : Step α} {call : Call α} (h : s.call? = some call) :
    s = .call call ∧ call ≠ .sweep := by
  cases s with
  | call c =>
    cases c with
    | sweep => cases h
    | set | get | has | expire | remove | size =>
      cases h
      exact ⟨rfl, fun h => by cases h⟩
  | startSweeper | stopSweeper | catchUp => cases h

/-- A course from where cache and map look the same, none of whose calls is earlier. -/
theorem results_of_agrees {now : Nat} {cache : Cache α} {m : Reference α} (h : Agrees now cache m)
    {course : List (Clock × Step α)} (horder : InOrder course)
    (hnow : ∀ moment ∈ course, moment.2.call?.isSome → now ≤ moment.1.now) :
    results cache course = m.results (calls course) := by
  induction course generalizing now cache m with
  | nil => rfl
  | cons moment course ih =>
    obtain ⟨c, s⟩ := moment
    rw [InOrder, List.pairwise_cons] at horder
    have hrest (moment) (hm : moment ∈ course) (hcall : moment.2.call?.isSome) :
        max now c.now ≤ moment.1.now :=
      Nat.max_le.2 ⟨hnow moment (List.mem_cons_of_mem _ hm) hcall, horder.1 moment hm hcall⟩
    cases hs : s.call? with
    | none =>
      have hagrees := (h.mono (Nat.le_max_left now c.now)).quiet (Nat.le_max_right now c.now) hs
      have hcalls : calls ((c, s) :: course) = calls course := by simp [calls, hs]
      have hreply : (cache.step c s).1 = none := by rw [step.eq_def, hs, Option.map_none]
      rw [hcalls, results, hreply, Option.toList_none, List.nil_append, ih hagrees horder.2 hrest]
    | some call =>
      obtain ⟨rfl, hcall⟩ := Step.eq_call hs
      have hle : now ≤ c.now := hnow _ (List.mem_cons_self ..) (by rw [hs]; rfl)
      obtain ⟨hreply, hagrees⟩ := (h.mono hle).call hcall
      have hcalls : calls ((c, .call call) :: course) = (c, call) :: calls course := by
        simp [calls, hs]
      have hstep : (cache.step c (.call call)).1 = some (cache.call c call).1 := by
        rw [step.eq_def, hs, Option.map_some]
      have hlater (moment) (hm : moment ∈ course) : moment.2.call?.isSome → c.now ≤ moment.1.now :=
        horder.1 moment hm
      rw [hcalls, results, hstep, hreply, Option.toList_some, List.singleton_append,
        Reference.results, ← ih hagrees horder.2 hlater, step]

/-- **Nobody can tell an expired entry from one that is gone.**  In any course of calls, sweeps and
sweepers at work, the results of the calls are those of the map in which an entry is there only
while it lasts; so they do not depend on what stands between the calls. -/
theorem results_eq_reference {course : List (Clock × Step α)} (horder : InOrder course) :
    results {} course = Reference.results (fun _ => none) (calls course) ∧
      ∀ course', InOrder course' → calls course' = calls course →
        results {} course' = results {} course := by
  have hstart : Agrees 0 ({} : Cache α) (fun _ => none) := ⟨List.nodup_nil, rfl⟩
  have hresults (course) (horder : InOrder course) :
      results {} course = Reference.results (fun _ => none) (calls course) :=
    results_of_agrees hstart horder fun _ _ _ => Nat.zero_le _
  refine ⟨hresults course horder, fun course' horder' hcalls => ?_⟩
  rw [hresults course horder, hresults course' horder', hcalls]

/-- An entry that a sweeper has come across, and that nobody has come across, is the same to a call
that would prolong it. -/
theorem results_eq_reference_prolong :
    let course : List (Clock × Step Nat) :=
      [({ now := 0 }, .call (.set "k" 1 (some 5))), ({ now := 3 }, .call (.get "k")),
        ({ now := 6 }, .call (.expire "k" none)), ({ now := 6 }, .call .size)]
    let swept : List (Clock × Step Nat) :=
      [({ now := 0 }, .startSweeper 2), ({ now := 0 }, .call (.set "k" 1 (some 5))),
        ({ now := 3 }, .call (.get "k")), ({ now := 6 }, .catchUp),
        ({ now := 6 }, .call (.expire "k" none)), ({ now := 5 }, .call .sweep),
        ({ now := 6 }, .call .size)]
    InOrder course ∧ InOrder swept ∧ calls swept = calls course ∧
      results {} course = [.stored, .value (some 1), .flag false, .count 0] ∧
      results {} swept = results {} course ∧
      results {} course = Reference.results (fun _ => none) (calls course) := by
  intro course swept
  have horder : InOrder course := by unfold InOrder; decide
  have horder' : InOrder swept := by unfold InOrder; decide
  obtain ⟨hreference, hsame⟩ := results_eq_reference horder
  exact ⟨horder, horder', rfl, rfl, hsame swept horder' rfl, hreference⟩

end ScriptHost.Cache
