import ScriptHost.Proofs.Capability.Identity

/-!
# What a key holds is what belongs there

All kinds of things are kept in one table, under keys that are made of texts which callers choose,
and every caller takes what is found for the kind of thing that was asked for.  A caller who finds
something else is told so (`mismatch`); but nobody ever does.

What is made for a configuration is what the configuration asks for (`CapabilityConfig.Makes`), and
configurations with one key ask for the same there: the kind stands in the key, and with it, for
sockets, the protocol (`CapabilityConfig.Makes.of_key`).  So whatever is found has been made for the
caller as well as for the one who built it (`Callers.Run.makes`).

`Callers.FindsItsKind` collects what follows for callers who ask at the same time and for one who
asks alone, with a configuration or with JSON.
-/

set_option autoImplicit false

namespace ScriptHost

namespace CapabilityConfig

variable {c c' : CapabilityConfig} {a : Capability} {k : CapabilityKey}

namespace Makes

theorem kind (h : c.Makes a) : a.kind = c.kind := by
  cases c <;> cases a <;> first | rfl | exact h.elim | cases h

/-- What was asked for is taken for what it is. -/
theorem expect (h : c.Makes a) : c.expect a = .ok a := by
  cases c <;> cases a <;> first | rfl | exact h.elim

/-- **One key, one sort of thing.** -/
theorem of_key (h : c.Makes a) (hk : c.key? = some k) (hk' : c'.key? = some k) : c'.Makes a := by
  have hkind : c'.kind = c.kind := (kind_of_key? hk').symm.trans (kind_of_key? hk)
  cases c <;> cases c' <;> cases hkind
  case queue | pipe | cache | eventBus | database | httpClient => cases a <;> exact h
  case lock => cases hk
  case socket c c' =>
    obtain ⟨protocol, _ | _, host, port⟩ := c
    · cases hk
    obtain ⟨protocol', _ | _, host', port'⟩ := c'
    · cases hk'
    obtain ⟨hprotocol, -, -⟩ := SocketConfig.eq_of_signature
      (congrArg CapabilityKey.signature (Option.some.inj (hk'.trans hk.symm)))
    obtain rfl : protocol' = protocol := hprotocol
    cases a <;> exact h

end Makes

/-- The JSON that a script has passed for a kind gives a configuration of that kind. -/
theorem kind_of_ofJson {kind : CapabilityKind} {config : Json} (h : ofJson kind config = .ok c) :
    c.kind = kind := by
  have of_map {α : Type} {r : Except Json.DecodeFault α} {f : α → CapabilityConfig}
      (hf : ∀ x, (f x).kind = kind) (hmap : r.map f = .ok c) : c.kind = kind := by
    cases r with
    | error e => cases hmap
    | ok x => exact Except.ok.inj hmap ▸ hf x
  rw [ofJson] at h
  split at h
  · rename_i hdecode
    obtain rfl := Except.ok.inj h
    cases kind <;> exact of_map (fun _ => rfl) hdecode
  · cases h

end CapabilityConfig

namespace Callers

variable {ε : Type} {config : RegistryConfig} {reachable : Database.Target → Bool} {s : Callers ε}
  {c : CapabilityConfig} {k : CapabilityKey} {a : Capability}

namespace Run

/-- What is under a key is what anybody who comes with the key asks for. -/
theorem makes_of_slot (run : Run config reachable s)
    (h : (s.registry.table.slot k).content = some a) :
    (∃ c : CapabilityConfig, c.key? = some k ∧ c.Makes a) ∧ a.Backed s.registry.kinds := by
  obtain ⟨builds, hs⟩ := run.sound
  have hmem := SlotCalls.mem_succeeded.1 ((hs.slots.kept.accounts.succeeded k a).2 h)
  obtain ⟨c, hk, -, hmakes⟩ := hs.origin.asked k a hmem
  exact ⟨⟨c, hk, hmakes⟩, hs.origin.backed k a hmem⟩

/-- **What is found has been made for the caller**, whoever has built it. -/
theorem makes (run : Run config reachable s) (h : s.Answered c (.ok a)) :
    c.Makes a ∧ a.Backed s.registry.kinds := by
  obtain ⟨builds, hs⟩ := run.sound
  cases hk : c.key? with
  | none =>
    rcases h with hmem | ⟨call, hcall, hasked, -⟩
    · exact hs.made c a hmem
    · obtain ⟨c', hc', hkey⟩ := hs.asked hcall
      rw [Option.some.inj (hc'.symm.trans hasked), hk] at hkey
      cases hkey
  | some k =>
    have hmem := hs.mem_builds h hk
    obtain ⟨c', hk', -, hmakes⟩ := hs.origin.asked k a hmem
    exact ⟨hmakes.of_key hk' hk, hs.origin.backed k a hmem⟩

/-- The same for a caller who asks alone. -/
theorem makes_of_resolve (run : Run config reachable s) (h : (s.registry.resolve c).1 = .ok a) :
    c.Makes a := by
  have hbuild (h : (s.registry.build c).1 = .ok a) : c.Makes a := by
    have hbuilt := s.registry.built_build c
    rw [h] at hbuilt
    exact hbuilt.makes
  rw [Registry.resolve] at h
  cases hk : c.key? with
  | none =>
    rw [hk] at h
    exact hbuild h
  | some k =>
    simp only [hk, Registry.shared, SlotTable.shared, SlotTable.slot_find] at h
    cases hslot : (s.registry.table.slot k).content with
    | some b =>
      rw [hslot] at h
      obtain rfl := Except.ok.inj h
      obtain ⟨⟨c', hk', hmakes⟩, -⟩ := run.makes_of_slot hslot
      exact hmakes.of_key hk' hk
    | none =>
      rw [hslot] at h
      exact hbuild h

theorem obtain_eq_resolve (run : Run config reachable s) (c : CapabilityConfig) :
    s.registry.obtain c = s.registry.resolve c := by
  rw [Registry.obtain]
  cases h : s.registry.resolve c with
  | mk r registry =>
    cases r with
    | error e => rfl
    | ok a => exact congrArg (·, registry) (run.makes_of_resolve (congrArg Prod.fst h)).expect

/-- What is given to a caller is what was found. -/
theorem obtained_iff (run : Run config reachable s) {r : Outcome Capability} :
    s.Obtained c r ↔ s.Answered c r := by
  have htake {found : Outcome Capability} (h : s.Answered c found) :
      found.bind c.expect = found := by
    cases found with
    | error e => rfl
    | ok a => exact (run.makes h).1.expect
  constructor
  · rintro ⟨found, h, rfl⟩
    rwa [htake h]
  · exact fun h => ⟨r, h, (htake h).symm⟩

/-- A queue and a pipe are no handles to one resource. -/
theorem queue_ne_pipe (run : Run config reachable s) {q : QueueConfig} {p : NamedConfig}
    {b : Capability} (hq : s.Answered (.queue q) (.ok a)) (hp : s.Answered (.pipe p) (.ok b)) :
    a.id? ≠ b.id? := by
  intro hid
  obtain ⟨id, ha⟩ := Option.ne_none_iff_exists'.1 (run.numbered hq rfl)
  have hkey := run.key_eq_of_same hq hp rfl rfl (.inr ⟨id, ha, hid ▸ ha⟩)
  exact absurd (congrArg CapabilityKey.kind hkey) nofun

end Run

/-- Everybody finds what they have asked for, and is given it. -/
structure FindsItsKind (s : Callers ε) : Prop where
  /-- What is under a key is of its kind, and what anybody asks for who comes with the key. -/
  stored : ∀ k a, (s.registry.table.slot k).content = some a →
    a.kind = k.kind ∧ a.Backed s.registry.kinds ∧
      ∀ c : CapabilityConfig, c.key? = some k → c.Makes a
  /-- What is found is taken for what it is. -/
  taken : ∀ c a, s.Answered c (.ok a) → c.expect a = .ok a ∧ a.Backed s.registry.kinds
  /-- So a call fails only if there is nothing to be found, because a build has failed. -/
  failed : ∀ c e, s.Obtained c (.error e) → s.Answered c (.error e)
  obtained : ∀ c a, s.Obtained c (.ok a) → c.Makes a ∧ a.kind = c.kind
  /-- Queues and pipes are no handles to each other's resources. -/
  apart : ∀ q p a b, s.Obtained (.queue q) (.ok a) → s.Obtained (.pipe p) (.ok b) → a.id? ≠ b.id?
  /-- Whoever asks alone, after all that has happened, takes what there is as well. -/
  alone : ∀ c, s.registry.obtain c = s.registry.resolve c ∧
    ∀ a, (s.registry.obtain c).1 = .ok a → c.Makes a ∧ a.kind = c.kind
  named : ∀ kind config a, (s.registry.resolveNamed kind config).1 = .ok a →
    CapabilityKind.ofName kind = .ok a.kind

/-- **Whatever callers ask for, and however their calls are mixed**, under every key there is what
belongs there, and nobody is told that it is something else. -/
theorem finds_of_run (run : Run config reachable s) : s.FindsItsKind := by
  have halone (c : CapabilityConfig) (a : Capability) (h : (s.registry.obtain c).1 = .ok a) :
      c.Makes a ∧ a.kind = c.kind := by
    rw [run.obtain_eq_resolve] at h
    exact ⟨run.makes_of_resolve h, (run.makes_of_resolve h).kind⟩
  constructor
  case stored =>
    intro k a h
    obtain ⟨⟨c, hk, hmakes⟩, hbacked⟩ := run.makes_of_slot h
    exact ⟨hmakes.kind.trans (CapabilityConfig.kind_of_key? hk).symm, hbacked,
      fun c' hk' => hmakes.of_key hk hk'⟩
  case taken => exact fun c a h => ⟨(run.makes h).1.expect, (run.makes h).2⟩
  case failed => exact fun c e h => run.obtained_iff.1 h
  case obtained =>
    intro c a h
    have hmakes := (run.makes (run.obtained_iff.1 h)).1
    exact ⟨hmakes, hmakes.kind⟩
  case apart =>
    exact fun q p a b hq hp => run.queue_ne_pipe (run.obtained_iff.1 hq) (run.obtained_iff.1 hp)
  case alone => exact fun c => ⟨run.obtain_eq_resolve c, halone c⟩
  case named =>
    intro kind config a h
    rw [Registry.resolveNamed] at h
    split at h
    · cases h
    · rename_i hkind
      split at h
      · cases h
      · rename_i hconfig
        rw [hkind, (halone _ a h).2, CapabilityConfig.kind_of_ofJson hconfig]

/-- A queue and a pipe with one name. -/
theorem finds_of_run_one_name : ∃ s : Callers Unit, Run {} (fun _ => true) s ∧
    s.Answered (.queue ⟨"x", none⟩) (.ok (.queue 0)) ∧ s.Answered (.pipe ⟨"x"⟩) (.ok (.pipe 1)) ∧
    (CapabilityConfig.queue ⟨"x", none⟩).expect (.queue 0) = .ok (.queue 0) ∧ s.FindsItsKind := by
  have hqueue : (Registry.resolve (ε := Unit) { reachable := fun _ => true }
      (.queue ⟨"x", none⟩)).1 = .ok (.queue 0) := by decide +kernel
  have hpipe : ((Registry.resolve (ε := Unit) { reachable := fun _ => true }
      (.queue ⟨"x", none⟩)).2.resolve (.pipe ⟨"x"⟩)).1 = .ok (.pipe 1) := by decide +kernel
  obtain ⟨s, run, h₁, h₂⟩ := Run.exists_two rfl hqueue hpipe
  exact ⟨s, run, h₁, h₂, ((finds_of_run run).taken _ _ h₁).1, finds_of_run run⟩

end Callers

end ScriptHost
