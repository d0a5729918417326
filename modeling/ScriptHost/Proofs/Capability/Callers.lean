import ScriptHost.Capability.Callers
import ScriptHost.Proofs.Capability.Registry

/-!
# What the callers of a registry are given

Callers ask one registry for all kinds of things, while others use what they have been given, wait
for locks and let time pass.  What is shared goes through slots, on which
`Proofs/Capability/Sharing` has the laws; here they meet the registry in which the builds take
place.

* `Callers.Sound` — what every step keeps.  Its heart is `Callers.Origin`: whatever has been built
  has been built for somebody who asked for it under its key, and is no resource of another key.
* `Callers.Run.eq_of_key`, `Callers.Run.key_eq_of_same` — two callers are given the same if and only
  if they have asked under the same key.
* `Callers.Run.keeps` — an answer stays what it is.
* `Callers.Run.resolve` — a caller that finds nobody building can be given what `Registry.resolve`
  gives in one go.  So what holds of all runs also holds where one call follows another
  (`Callers.Run.inTurn`).
-/

set_option autoImplicit false

namespace ScriptHost

variable {ε : Type}

namespace Capability

/-- Two handles to one resource, whatever they take it for, or to one lock. -/
def Same (a b : Capability) : Prop := a = b ∨ ∃ id, a.id? = some id ∧ b.id? = some id

theorem Same.id?_eq {a b : Capability} (h : a.Same b) : a.id? = b.id? := by
  rcases h with rfl | ⟨id, ha, hb⟩
  · rfl
  · exact ha.trans hb.symm

end Capability

namespace Callers

open SlotCalls (succeeded mem_succeeded)

/-! ## What holds in a run -/

section

variable {reachable : Database.Target → Bool} {builds : List (CapabilityKey × Outcome Capability)}
  {kinds : List CapabilityKind}

/-- Where the things come from that have been built, when the resources are of these kinds: each has
been built for somebody who asked for it under its key, and is no thing of another key. -/
structure Origin (reachable : Database.Target → Bool)
    (builds : List (CapabilityKey × Outcome Capability)) (kinds : List CapabilityKind) : Prop where
  asked : ∀ k a, (k, .ok a) ∈ builds →
    ∃ c : CapabilityConfig, c.key? = some k ∧ c.Opens reachable ∧ c.Makes a
  numbered : ∀ k a, (k, .ok a) ∈ builds → a.id? ≠ none
  backed : ∀ k a, (k, .ok a) ∈ builds → a.Backed kinds
  apart : ∀ k a k' a', (k, .ok a) ∈ builds → (k', .ok a') ∈ builds → a.id? = a'.id? → k = k'

namespace Origin

theorem nil : Origin reachable [] [] :=
  ⟨fun _ _ h => absurd h List.not_mem_nil, fun _ _ h => absurd h List.not_mem_nil,
    fun _ _ h => absurd h List.not_mem_nil, fun _ _ _ _ h => absurd h List.not_mem_nil⟩

theorem mono (h : Origin reachable builds kinds) (more : List CapabilityKind) :
    Origin reachable builds (kinds ++ more) where
  asked := h.asked
  numbered := h.numbered
  backed k a hk := (h.backed k a hk).append more
  apart := h.apart

/-- A build that fails leaves nothing. -/
theorem fail (h : Origin reachable builds kinds) (k : CapabilityKey) (e : Failure) :
    Origin reachable (builds ++ [(k, .error e)]) kinds := by
  have hmem (k' : CapabilityKey) (a : Capability) :
      (k', .ok a) ∈ builds ++ [(k, .error e)] ↔ (k', .ok a) ∈ builds := by
    simp
  constructor
  · simpa only [hmem] using h.asked
  · simpa only [hmem] using h.numbered
  · simpa only [hmem] using h.backed
  · simpa only [hmem] using h.apart

/-- A build that succeeds has a number that no other has. -/
theorem add (h : Origin reachable builds kinds) {c : CapabilityConfig} {k : CapabilityKey}
    {a : Capability} (hk : c.key? = some k) (hopens : c.Opens reachable) (hmakes : c.Makes a)
    (ha : a.id? = some kinds.length) :
    Origin reachable (builds ++ [(k, .ok a)]) (kinds ++ [a.base]) := by
  have hmem {k' : CapabilityKey} {a' : Capability} (hk' : (k', .ok a') ∈ builds ++ [(k, .ok a)]) :
      (k', .ok a') ∈ builds ∨ (k' = k ∧ a' = a) := by
    simpa using hk'
  -- what was there before has a smaller number
  have hold {k' : CapabilityKey} {a' : Capability} (hk' : (k', .ok a') ∈ builds) :
      a'.id? ≠ some kinds.length := by
    intro hid
    have hkind := h.backed k' a' hk' _ hid
    rw [List.getElem?_eq_none (Nat.le_refl _)] at hkind
    cases hkind
  constructor
  case asked =>
    intro k' a' hk'
    rcases hmem hk' with hk' | ⟨rfl, rfl⟩
    · exact h.asked k' a' hk'
    · exact ⟨c, hk, hopens, hmakes⟩
  case numbered =>
    intro k' a' hk'
    rcases hmem hk' with hk' | ⟨-, rfl⟩
    · exact h.numbered k' a' hk'
    · rw [ha]
      exact nofun
  case backed =>
    intro k' a' hk'
    rcases hmem hk' with hk' | ⟨-, rfl⟩
    · exact (h.backed k' a' hk').append _
    · exact Capability.backed_last ha
  case apart =>
    intro k₁ a₁ k₂ a₂ h₁ h₂ hid
    rcases hmem h₁ with hk₁ | ⟨hk₁, ha₁⟩ <;> rcases hmem h₂ with hk₂ | ⟨hk₂, ha₂⟩
    · exact h.apart k₁ a₁ k₂ a₂ hk₁ hk₂ hid
    · exact absurd (hid.trans (ha₂ ▸ ha)) (hold hk₁)
    · exact absurd (hid.symm.trans (ha₁ ▸ ha)) (hold hk₂)
    · rw [hk₁, hk₂]

end Origin

/-- What holds of callers and their registry. -/
structure Sound (reachable : Database.Target → Bool)
    (builds : List (CapabilityKey × Outcome Capability)) (s : Callers ε) : Prop where
  slots : SlotCalls.Run builds s.slots
  origin : Origin reachable builds s.registry.kinds
  reachable : s.registry.reachable = reachable
  keys : s.calls.map (some ·.key) = s.asked.map (·.key?)
  unshared : ∀ c r, (c, r) ∈ s.unshared → c.key? = none ∧ ∀ n, c = .lock n → r = .ok (.lock n.name)
  made : ∀ c a, (c, .ok a) ∈ s.unshared → c.Makes a ∧ a.Backed s.registry.kinds

namespace Sound

variable {s s' : Callers ε}

/-- Using capabilities makes no difference. -/
theorem undisturbed (h : Sound reachable builds s) {registry : Registry ε}
    (hr : s.registry.Undisturbed registry) : Sound reachable builds { s with registry } where
  slots := by
    rw [Callers.slots, hr.table]
    exact h.slots
  origin := hr.kinds ▸ h.origin
  reachable := hr.reachable.trans h.reachable
  keys := h.keys
  unshared := h.unshared
  made := hr.kinds ▸ h.made

/-- A caller has a configuration, to which its key belongs. -/
theorem asked (h : Sound reachable builds s) {call : SlotCall CapabilityKey Capability}
    (hcall : call ∈ s.calls) : ∃ c, s.asked[call.id]? = some c ∧ c.key? = some call.key := by
  obtain ⟨i, hi⟩ := List.mem_iff_getElem?.1 hcall
  have hid : call.id = i := by
    have hids : (s.calls.map (·.id))[i]? = (List.range s.calls.length)[i]? :=
      congrArg (·[i]?) h.slots.kept.ids
    rw [List.getElem?_map, hi, List.getElem?_range (List.getElem?_eq_some_iff.1 hi).1] at hids
    exact Option.some.inj hids
  have hkey := congrArg (·[i]?) h.keys
  simp only [List.getElem?_map, hi, Option.map_some] at hkey
  obtain ⟨c, hc, hck⟩ := Option.map_eq_some_iff.1 hkey.symm
  exact ⟨c, hid ▸ hc, hck⟩

/-- A caller goes on through its slot. -/
theorem onSlots (h : Sound reachable builds s) {label : SlotCalls.Label CapabilityKey Capability}
    {slots : SlotCalls CapabilityKey Capability} (hstep : s.slots.step label = some slots)
    {asked : List CapabilityConfig}
    (hasked : asked.map (·.key?) = s.asked.map (·.key?) ++ label.arrival?.toList.map some)
    {registry : Registry ε} (hreachable : registry.reachable = s.registry.reachable)
    (hkinds : ∃ more, registry.kinds = s.registry.kinds ++ more)
    (horigin : Origin reachable (builds ++ (s.slots.build? label).toList) registry.kinds) :
    Sound reachable (builds ++ (s.slots.build? label).toList)
      ({ s with registry, asked }.setSlots slots) where
  slots := h.slots.step label hstep
  origin := horigin
  reachable := hreachable.trans h.reachable
  keys := by
    have hkeys := congrArg (List.map some) (SlotCalls.keys_of_step hstep)
    rw [List.map_append, List.map_map, List.map_map] at hkeys
    show slots.calls.map (some ·.key) = asked.map (·.key?)
    rw [hasked, ← h.keys]
    exact hkeys
  unshared := h.unshared
  made c a hmem := by
    obtain ⟨more, hmore⟩ := hkinds
    obtain ⟨hmakes, hbacked⟩ := h.made c a hmem
    refine ⟨hmakes, ?_⟩
    show a.Backed registry.kinds
    rw [hmore]
    exact hbacked.append more

/-- A caller that comes away with nothing, or has got nowhere yet. -/
theorem through (h : Sound reachable builds s) {label : SlotCalls.Label CapabilityKey Capability}
    (hstep : s.onSlots label = some s') (harrival : label.arrival? = none)
    (hfail : ∀ k a, s.slots.build? label ≠ some (k, .ok a)) :
    ∃ builds', Sound reachable builds' s' := by
  obtain ⟨slots, hslots, rfl⟩ := Option.map_eq_some_iff.1 hstep
  refine ⟨_, h.onSlots hslots ?_ rfl ⟨[], (List.append_nil _).symm⟩ ?_⟩
  · rw [harrival]
    exact (List.append_nil _).symm
  · rcases hbuild : s.slots.build? label with _ | ⟨k, a | e⟩
    · rw [Option.toList_none, List.append_nil]
      exact h.origin
    · exact h.origin.fail k _
    · exact absurd hbuild (hfail k _)

/-- A caller builds. -/
theorem build (h : Sound reachable builds s) {id : Nat} (hstep : s.step (.build id) = some s') :
    ∃ builds', Sound reachable builds' s' := by
  obtain ⟨c, hc, hfinish⟩ := Option.bind_eq_some_iff.1 hstep
  have hbuilt := s.registry.built_build c
  rcases hb : s.registry.build c with ⟨r, registry⟩
  rw [hb] at hfinish hbuilt
  obtain ⟨slots, hslots, rfl⟩ := Option.map_eq_some_iff.1 hfinish
  have hsame : ({ s with registry } : Callers ε).slots = s.slots := by
    rw [Callers.slots, hbuilt.table, Callers.slots]
  rw [hsame] at hslots
  obtain ⟨call, hcall, rfl, hbuild⟩ := SlotCalls.build?_of_finish hslots
  obtain ⟨c', hc', hkey⟩ := h.asked hcall
  obtain rfl : c' = c := Option.some.inj (hc'.symm.trans hc)
  have horigin : Origin reachable (builds ++ (s.slots.build? (.finish call.id r)).toList)
      registry.kinds := by
    rw [hbuild, Option.toList_some]
    cases hbuilt with
    | kept x ha hopens hmakes hkind =>
      rw [Registry.kinds, List.map_append, List.map_singleton, hkind]
      exact h.origin.add hkey (h.reachable ▸ hopens) hmakes
        (ha.trans (congrArg some (List.length_map _).symm))
    | lock hlock =>
      rw [hlock] at hkey
      cases hkey
    | failed e => exact h.origin.fail _ e
  exact ⟨_, h.onSlots hslots (List.append_nil _).symm hbuilt.reachable hbuilt.kinds horigin⟩

/-- Somebody asks for something. -/
theorem ask (h : Sound reachable builds s) {c : CapabilityConfig}
    (hstep : s.step (.ask c) = some s') : ∃ builds', Sound reachable builds' s' := by
  rw [Callers.step] at hstep
  split at hstep
  · rename_i key hkey
    obtain ⟨slots, hslots, rfl⟩ := Option.map_eq_some_iff.1 hstep
    refine ⟨_, h.onSlots hslots ?_ rfl ⟨[], (List.append_nil _).symm⟩ ?_⟩
    · rw [List.map_append, List.map_singleton, hkey]
      rfl
    · exact (List.append_nil builds).symm ▸ h.origin
  · rename_i hkey
    have hbuilt := s.registry.built_build c
    rcases hb : s.registry.build c with ⟨r, registry⟩
    rw [hb] at hstep hbuilt
    obtain rfl := Option.some.inj hstep
    obtain ⟨more, hmore⟩ := hbuilt.kinds
    refine ⟨builds, ?_, hmore ▸ h.origin.mono more, hbuilt.reachable.trans h.reachable, h.keys,
      fun c' r' hmem => ?_, fun c' a hmem => ?_⟩
    · show SlotCalls.Run builds
        { table := registry.table, calls := s.calls, censuses := s.censuses }
      rw [hbuilt.table]
      exact h.slots
    · rcases List.mem_append.1 hmem with hold | hnew
      · exact h.unshared c' r' hold
      · cases List.mem_singleton.1 hnew
        refine ⟨hkey, fun n hlock => ?_⟩
        rw [hlock] at hb
        exact (congrArg Prod.fst hb).symm
    · rcases List.mem_append.1 hmem with hold | hnew
      · obtain ⟨hmakes, hbacked⟩ := h.made c' a hold
        exact ⟨hmakes, hmore ▸ hbacked.append more⟩
      · cases List.mem_singleton.1 hnew
        exact ⟨hbuilt.makes, hbuilt.backed⟩

/-- **Every step keeps** what holds of callers and their registry. -/
theorem step (h : Sound reachable builds s) {label : Label ε} (hstep : s.step label = some s') :
    ∃ builds', Sound reachable builds' s' := by
  cases label with
  | ask c => exact h.ask hstep
  | find id | lock id | look id | census order | peek id | tally id =>
    exact h.through hstep rfl nofun
  | fail id e =>
    refine h.through hstep rfl fun k a hbuild => ?_
    obtain ⟨c, -, heq⟩ := Option.map_eq_some_iff.1 hbuild
    cases heq
  | build id => exact h.build hstep
  | use c u d =>
    cases hstep
    exact ⟨builds, h.undisturbed (Registry.undisturbed_start ..)⟩
  | poll w | await w =>
    cases hstep
    exact ⟨builds, h.undisturbed (Registry.undisturbed_onWaiting ..)⟩
  | releaseLocks holder =>
    cases hstep
    exact ⟨builds, h.undisturbed (Registry.undisturbed_releaseLocks ..)⟩
  | pass ms =>
    cases hstep
    exact ⟨builds, h.undisturbed ⟨rfl, rfl, rfl, s.registry.clock.passes_pass ms⟩⟩

/-- Whoever shares something has got what was built under the key. -/
theorem mem_builds (h : Sound reachable builds s) {c : CapabilityConfig} {k : CapabilityKey}
    {a : Capability} (hanswer : s.Answered c (.ok a)) (hk : c.key? = some k) :
    (k, .ok a) ∈ builds := by
  rcases hanswer with hmem | ⟨call, hcall, hasked, hphase⟩
  · rw [(h.unshared c _ hmem).1] at hk
    cases hk
  · obtain ⟨c', hc', hkey⟩ := h.asked hcall
    obtain rfl : c' = c := Option.some.inj (hc'.symm.trans hasked)
    obtain rfl : call.key = k := Option.some.inj (hkey.symm.trans hk)
    exact mem_succeeded.1 ((SlotCalls.sharing_of_run h.slots).same call hcall a hphase)

end Sound

end

/-! ## Runs -/

/-- Whoever has been answered still is. -/
def Keeps (s s' : Callers ε) : Prop := ∀ c r, s.Answered c r → s'.Answered c r

theorem Keeps.trans {s s' s'' : Callers ε} (h : s.Keeps s') (h' : s'.Keeps s'') : s.Keeps s'' :=
  fun c r hanswer => h' c r (h c r hanswer)

/-- Caller `id` has asked for `c`, which is shared under `k`, and has come this far. -/
structure Stands (s : Callers ε) (id : Nat) (c : CapabilityConfig) (k : CapabilityKey)
    (phase : SlotPhase Capability) : Prop where
  asked : s.asked[id]? = some c
  call : ⟨id, k, phase⟩ ∈ s.calls

theorem Stands.answered {s : Callers ε} {id : Nat} {c : CapabilityConfig} {k : CapabilityKey}
    {r : Outcome Capability} (h : s.Stands id c k (.returned r)) : s.Answered c r :=
  .inr ⟨_, h.call, h.asked, rfl⟩

/-- A registry and its callers, from the beginning on. -/
inductive Run (config : RegistryConfig) (reachable : Database.Target → Bool) : Callers ε → Prop
  | start : Run config reachable { registry := { config, reachable } }
  | step {s s' : Callers ε} (label : Label ε) : Run config reachable s → s.step label = some s' →
      Run config reachable s'

namespace Run

variable {config : RegistryConfig} {reachable : Database.Target → Bool} {s : Callers ε}

theorem sound (run : Run config reachable s) : ∃ builds, Sound reachable builds s := by
  induction run with
  | start =>
    exact ⟨[], .start, .nil, rfl, rfl, fun _ _ hmem => absurd hmem List.not_mem_nil,
      fun _ _ hmem => absurd hmem List.not_mem_nil⟩
  | step label _ hstep ih =>
    obtain ⟨builds, h⟩ := ih
    exact h.step hstep

variable {c₁ c₂ : CapabilityConfig} {k₁ k₂ : CapabilityKey} {a₁ a₂ : Capability}

/-- **Whoever asks under the same key** is given the same. -/
theorem eq_of_key (run : Run config reachable s) (h₁ : s.Answered c₁ (.ok a₁))
    (h₂ : s.Answered c₂ (.ok a₂)) (hk₁ : c₁.key? = some k₁) (hk₂ : c₂.key? = some k₁) :
    a₁ = a₂ := by
  obtain ⟨builds, h⟩ := run.sound
  have hslot {a : Capability} (hmem : (k₁, .ok a) ∈ builds) :
      (s.slots.table.slot k₁).content = some a :=
    (h.slots.kept.accounts.succeeded k₁ a).1 (mem_succeeded.2 hmem)
  have hsame := (hslot (h.mem_builds h₁ hk₁)).symm.trans (hslot (h.mem_builds h₂ hk₂))
  exact Option.some.inj hsame

/-- **Whoever is given the same** has asked for it under the same key. -/
theorem key_eq_of_same (run : Run config reachable s) (h₁ : s.Answered c₁ (.ok a₁))
    (h₂ : s.Answered c₂ (.ok a₂)) (hk₁ : c₁.key? = some k₁) (hk₂ : c₂.key? = some k₂)
    (hsame : a₁.Same a₂) : k₁ = k₂ := by
  obtain ⟨builds, h⟩ := run.sound
  exact h.origin.apart _ _ _ _ (h.mem_builds h₁ hk₁) (h.mem_builds h₂ hk₂) hsame.id?_eq

/-- What is shared has been opened by somebody who asked for it under its key. -/
theorem opened (run : Run config reachable s) (h₁ : s.Answered c₁ (.ok a₁))
    (hk₁ : c₁.key? = some k₁) : ∃ c : CapabilityConfig, c.key? = some k₁ ∧ c.Opens reachable := by
  obtain ⟨builds, h⟩ := run.sound
  obtain ⟨c, hk, hopens, -⟩ := h.origin.asked k₁ a₁ (h.mem_builds h₁ hk₁)
  exact ⟨c, hk, hopens⟩

/-- What is shared has a number. -/
theorem numbered (run : Run config reachable s) (h₁ : s.Answered c₁ (.ok a₁))
    (hk₁ : c₁.key? = some k₁) : a₁.id? ≠ none := by
  obtain ⟨builds, h⟩ := run.sound
  exact h.origin.numbered k₁ a₁ (h.mem_builds h₁ hk₁)

/-- Whoever asks for a lock is given that lock. -/
theorem lock (run : Run config reachable s) {n : NamedConfig}
    (h₁ : s.Answered (.lock n) (.ok a₁)) : a₁ = .lock n.name := by
  obtain ⟨builds, h⟩ := run.sound
  rcases h₁ with hmem | ⟨call, hcall, hasked, -⟩
  · exact Except.ok.inj ((h.unshared _ _ hmem).2 n rfl)
  · obtain ⟨c, hc, hkey⟩ := h.asked hcall
    cases Option.some.inj (hc.symm.trans hasked)
    cases hkey

/-! ## Being given what there is -/

/-- **An answer stays** what it is. -/
theorem keeps (run : Run config reachable s) {s' : Callers ε} {label : Label ε}
    (hstep : s.step label = some s') : s.Keeps s' := by
  obtain ⟨builds, h⟩ := run.sound
  have through {asked : List CapabilityConfig} {registry : Registry ε}
      {slotLabel : SlotCalls.Label CapabilityKey Capability}
      (hasked : ∀ (i : Nat) c, s.asked[i]? = some c → asked[i]? = some c)
      (htable : registry.table = s.registry.table)
      (hstep : { s with registry, asked }.onSlots slotLabel = some s') : s.Keeps s' := by
    obtain ⟨slots, hslots, rfl⟩ := Option.map_eq_some_iff.1 hstep
    rw [Callers.slots, htable] at hslots
    rintro c r (hmem | ⟨call, hcall, hc, hphase⟩)
    · exact .inl hmem
    · exact .inr ⟨call, h.slots.kept.returned_of_step hslots hcall hphase, hasked _ _ hc, hphase⟩
  cases label with
  | ask c =>
    rw [Callers.step] at hstep
    split at hstep
    · refine through (fun i c hc => ?_) rfl hstep
      rw [List.getElem?_append_left (List.getElem?_eq_some_iff.1 hc).1, hc]
    · cases hstep
      rintro c' r (hmem | hcall)
      · exact .inl (List.mem_append_left _ hmem)
      · exact .inr hcall
  | find id | lock id | look id | fail id e | census order | peek id | tally id =>
    exact through (fun _ _ hc => hc) rfl hstep
  | build id =>
    obtain ⟨c, -, hfinish⟩ := Option.bind_eq_some_iff.1 hstep
    exact through (fun _ _ hc => hc) (s.registry.built_build c).table hfinish
  | use c u d | poll w | await w | releaseLocks holder | pass ms =>
    cases hstep
    exact fun _ _ h => h

/-- A caller goes on. -/
theorem turn (run : Run config reachable s) {id : Nat} {c : CapabilityConfig} {k : CapabilityKey}
    {phase : SlotPhase Capability} (hstands : s.Stands id c k phase) (label : Label ε)
    (table : SlotTable CapabilityKey Capability) (phase' : SlotPhase Capability)
    {slotLabel : SlotCalls.Label CapabilityKey Capability} {registry : Registry ε}
    (hlabel : s.step label = { s with registry }.onSlots slotLabel)
    (hstep : ({ s with registry } : Callers ε).slots.step slotLabel =
      some ({ s.slots with table }.setPhase id phase')) :
    ∃ s', Run config reachable s' ∧ s.Keeps s' ∧ s'.registry = { registry with table } ∧
      s'.Stands id c k phase' := by
  have hstep' := hlabel.trans (congrArg (Option.map _) hstep)
  exact ⟨_, run.step label hstep', run.keeps hstep', rfl, hstands.asked,
    SlotCalls.Kept.setPhase_mem (s := s.slots) hstands.call table phase'⟩

/-- A caller that is there is found. -/
theorem find? (run : Run config reachable s) {id : Nat} {c : CapabilityConfig} {k : CapabilityKey}
    {phase : SlotPhase Capability} (hstands : s.Stands id c k phase) :
    s.calls.find? (·.id = id) = some ⟨id, k, phase⟩ := by
  obtain ⟨builds, h⟩ := run.sound
  exact h.slots.kept.find? hstands.call

/-- Somebody asks for something that is shared, and finds its slot. -/
theorem reach (run : Run config reachable s) {c : CapabilityConfig} {k : CapabilityKey}
    (hk : c.key? = some k) :
    ∃ s' id, Run config reachable s' ∧ s.Keeps s' ∧
      s'.registry = { s.registry with table := s.registry.table.find k } ∧
      s'.Stands id c k .found := by
  obtain ⟨builds, h⟩ := run.sound
  have hlength : s.asked.length = s.calls.length := by
    simpa using (congrArg List.length h.keys).symm
  let s₁ : Callers ε := { s with
    calls := s.calls ++ [⟨s.calls.length, k, .arrived⟩], asked := s.asked ++ [c] }
  have hstep : s.step (.ask c) = some s₁ := by
    rw [Callers.step, hk]
    rfl
  have hstands : s₁.Stands s.calls.length c k .arrived := by
    refine ⟨?_, List.mem_append_right _ List.mem_cons_self⟩
    rw [← hlength]
    exact List.getElem?_concat_length
  have run₁ := run.step _ hstep
  obtain ⟨s', run', hkeeps, hregistry, hstands'⟩ := run₁.turn hstands (.find s.calls.length)
    (s.registry.table.find k) .found rfl
    (by simp [Callers.slots, SlotCalls.step, run₁.find? hstands, s₁])
  exact ⟨s', _, run', (run.keeps hstep).trans hkeeps, hregistry, hstands'⟩

/-- A caller takes the lock of its slot. -/
theorem enter (run : Run config reachable s) {id : Nat} {c : CapabilityConfig} {k : CapabilityKey}
    (hstands : s.Stands id c k .found) (hfree : (s.registry.table.slot k).holder = none) :
    ∃ s', Run config reachable s' ∧ s.Keeps s' ∧
      s'.registry = { s.registry with
        table := s.registry.table.setHolder k (some (.caller id)) } ∧
      s'.Stands id c k .looking :=
  run.turn hstands (.lock id) _ .looking rfl
    (by simp [Callers.slots, SlotCalls.step, run.find? hstands, hfree])

/-- A caller finds what others have built. -/
theorem share (run : Run config reachable s) {id : Nat} {c : CapabilityConfig} {k : CapabilityKey}
    (hstands : s.Stands id c k .looking) {a : Capability}
    (hslot : (s.registry.table.slot k).content = some a) :
    ∃ s', Run config reachable s' ∧ s.Keeps s' ∧
      s'.registry = { s.registry with table := s.registry.table.setHolder k none } ∧
      s'.Answered c (.ok a) := by
  obtain ⟨s', run', hkeeps, hregistry, hstands'⟩ := run.turn hstands (.look id)
    (s.registry.table.setHolder k none) (.returned (.ok a)) rfl
    (by simp [Callers.slots, SlotCalls.step, run.find? hstands, hslot])
  exact ⟨s', run', hkeeps, hregistry, hstands'.answered⟩

/-- A caller finds nothing, and builds. -/
theorem make (run : Run config reachable s) {id : Nat} {c : CapabilityConfig} {k : CapabilityKey}
    (hstands : s.Stands id c k .looking) (hslot : (s.registry.table.slot k).content = none) :
    ∃ s', Run config reachable s' ∧ s.Keeps s' ∧
      s'.registry = { (s.registry.build c).2 with
        table := s.registry.table.set k (.outcome (s.registry.build c).1) } ∧
      s'.Answered c (s.registry.build c).1 := by
  obtain ⟨s₁, run₁, hkeeps₁, hregistry₁, hstands₁⟩ := run.turn hstands (.look id) s.registry.table
    .building rfl (by simp [Callers.slots, SlotCalls.step, run.find? hstands, hslot])
  generalize hbuild : s.registry.build c = built
  obtain ⟨r, registry⟩ := built
  have htable : registry.table = s.registry.table := by
    have hbuilt := s.registry.built_build c
    rw [hbuild] at hbuilt
    exact hbuilt.table
  have hlabel : s₁.step (.build id) = { s₁ with registry }.onSlots (.finish id r) := by
    rw [Callers.step, hstands₁.asked, Option.bind_eq_bind, Option.bind_some, hregistry₁, hbuild]
  obtain ⟨s₂, run₂, hkeeps₂, hregistry₂, hstands₂⟩ := run₁.turn hstands₁ (.build id)
    (s.registry.table.set k (.outcome r)) (.returned r) hlabel
    (by simp [Callers.slots, SlotCalls.step, run₁.find? hstands₁, htable])
  exact ⟨s₂, run₂, hkeeps₁.trans hkeeps₂, hregistry₂, hstands₂.answered⟩

/-- **A caller that finds the lock free** can be given what `Registry.resolve` gives in one go. -/
theorem resolve (run : Run config reachable s) (c : CapabilityConfig)
    (hfree : ∀ k, c.key? = some k → (s.registry.table.slot k).holder = none) :
    ∃ s', Run config reachable s' ∧ s.Keeps s' ∧ s'.registry = (s.registry.resolve c).2 ∧
      s'.Answered c (s.registry.resolve c).1 := by
  rw [Registry.resolve]
  cases hk : c.key? with
  | none =>
    have hstep : s.step (.ask c) = some { s with
        registry := (s.registry.build c).2
        unshared := s.unshared ++ [(c, (s.registry.build c).1)] } := by
      rw [Callers.step, hk]
    exact ⟨_, run.step _ hstep, run.keeps hstep, rfl,
      .inl (List.mem_append_right _ List.mem_cons_self)⟩
  | some k =>
    obtain ⟨s₁, id, run₁, hkeeps₁, hregistry₁, hstands₁⟩ := run.reach hk
    have hslot : s₁.registry.table.slot k = s.registry.table.slot k := by
      rw [hregistry₁, SlotTable.slot_find]
    have hfree₁ := (congrArg Slot.holder hslot).trans (hfree k hk)
    obtain ⟨s₂, run₂, hkeeps₂, hregistry₂, hstands₂⟩ := run₁.enter hstands₁ hfree₁
    obtain ⟨builds, h₁⟩ := run₁.sound
    have hhas : s₁.registry.table.Has k :=
      (h₁.slots.kept.calls _ hstands₁.call).found (by rintro ⟨⟩)
    have hcontent : (s₂.registry.table.slot k).content = (s.registry.table.slot k).content := by
      rw [hregistry₂, ← hslot]
      exact SlotTable.content_setHolder hhas _
    simp only [Registry.shared, SlotTable.shared, SlotTable.slot_find]
    cases hs : (s.registry.table.slot k).content with
    | some a =>
      obtain ⟨s₃, run₃, hkeeps₃, hregistry₃, hanswered⟩ := run₂.share hstands₂ (hcontent.trans hs)
      refine ⟨s₃, run₃, (hkeeps₁.trans hkeeps₂).trans hkeeps₃, ?_, hanswered⟩
      have hback : (s₁.registry.table.setHolder k (some (.caller id))).setHolder k none =
          s₁.registry.table :=
        SlotTable.setHolder_setHolder_none h₁.slots.kept.accounts.single hhas hfree₁ _
      rw [hregistry₃, hregistry₂]
      exact (congrArg (fun table => { s₁.registry with table }) hback).trans hregistry₁
    | none =>
      obtain ⟨s₃, run₃, hkeeps₃, hregistry₃, hanswered⟩ := run₂.make hstands₂ (hcontent.trans hs)
      rw [hregistry₂, Registry.build_setTable, SlotTable.set_setHolder, hregistry₁,
        Registry.build_setTable] at hregistry₃
      rw [hregistry₂, Registry.build_setTable, hregistry₁, Registry.build_setTable] at hanswered
      exact ⟨s₃, run₃, (hkeeps₁.trans hkeeps₂).trans hkeeps₃, hregistry₃, hanswered⟩

/-- **Calls that follow one another** are given what `Registry.inTurn` says. -/
theorem inTurn (run : Run config reachable s) (hidle : s.registry.Idle)
    (cs : List CapabilityConfig) :
    ∃ s', Run config reachable s' ∧ s.Keeps s' ∧ s'.registry = (s.registry.inTurn cs).2 ∧
      ∀ p ∈ (s.registry.inTurn cs).1, s'.Answered p.1 p.2 := by
  induction cs generalizing s with
  | nil => exact ⟨s, run, fun _ _ h => h, rfl, fun _ h => absurd h List.not_mem_nil⟩
  | cons c cs ih =>
    obtain ⟨s₁, run₁, hkeeps₁, hregistry₁, hanswered₁⟩ := run.resolve c fun k _ => hidle k
    obtain ⟨s₂, run₂, hkeeps₂, hregistry₂, hanswered₂⟩ := ih run₁ (hregistry₁ ▸ hidle.resolve c)
    rw [hregistry₁] at hregistry₂ hanswered₂
    refine ⟨s₂, run₂, hkeeps₁.trans hkeeps₂, hregistry₂, ?_⟩
    exact List.forall_mem_cons.2 ⟨hkeeps₂ _ _ hanswered₁, hanswered₂⟩

/-- Two calls, the first ones of all. -/
theorem exists_two {config : RegistryConfig} {reachable : Database.Target → Bool}
    {c₁ c₂ : CapabilityConfig} {r₁ r₂ : Outcome Capability} {registry : Registry ε}
    (hnew : registry = { config, reachable }) (h₁ : (registry.resolve c₁).1 = r₁)
    (h₂ : ((registry.resolve c₁).2.resolve c₂).1 = r₂) :
    ∃ s : Callers ε, Run config reachable s ∧ s.Answered c₁ r₁ ∧ s.Answered c₂ r₂ := by
  subst hnew
  obtain ⟨s, run, -, -, h⟩ := Run.start.inTurn (ε := ε) (fun _ => rfl) [c₁, c₂]
  refine ⟨s, run, ?_, ?_⟩
  · rw [← h₁]
    exact h _ List.mem_cons_self
  · rw [← h₂]
    exact h _ (List.mem_cons_of_mem _ List.mem_cons_self)

end Run

end Callers

end ScriptHost
