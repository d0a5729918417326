import ScriptHost.Proofs.Capability.Callers
import ScriptHost.Proofs.Json.Text
import ScriptHost.Proofs.Text.Split
import Mathlib.Data.List.TakeWhile

/-!
# Who shares a resource

What is built is kept under a text that is put together of what callers say: a driver and a
connection; a protocol, a host and a port; a whole configuration.  If callers who want different
things could come to one text, the second of them would be given what is the first one's.

Every kind of text is safe from that for a reason of its own:

* **Sockets.**  The host may have any characters, but neither the name of a protocol nor a port has
  the one that stands between it and the host (`SocketConfig.eq_of_signature`).
* **Clients.**  The text is JSON, which is read in one way only
  (`HttpClientConfig.signature_injective`).
* **Databases.**  Two configurations may well have one text: nothing keeps the character between the
  driver and the connection out of either.  But then none of them can be opened.  The names of
  drivers are without it, and no file can be opened whose name has it
  (`DatabaseConfig.eq_of_signature`).

So whoever is given the same has asked for the same (`Callers.identity_of_same`).  Callers who want
the same, on the other hand, have to write it in the same way: a driver has several names, and under
each of them a connection leads to a database of its own (`Callers.database_eq_iff`).
-/

set_option autoImplicit false

namespace ScriptHost

/-! ## The character that ends the driver of a database -/

namespace Text

/-- Trimming takes away blanks only. -/
theorem mem_trimList {c : Char} {cs : List Char} (h : c ∈ cs) (hc : isBlank c = false) :
    c ∈ trimList cs := by
  have keeps {cs : List Char} (h : c ∈ cs) : c ∈ cs.dropWhile isBlank := by
    rw [← List.takeWhile_append_dropWhile (p := isBlank) (l := cs)] at h
    refine (List.mem_append.1 h).resolve_left fun htake => ?_
    rw [List.mem_takeWhile_imp htake] at hc
    cases hc
  rw [trimList, List.mem_reverse]
  exact keeps (List.mem_reverse.2 (keeps h))

theorem eq_nul_of_toLower {c : Char} (h : c.toLower = '\x00') : c = '\x00' := by
  by_cases hupper : c.val ≥ 'A'.val ∧ c.val ≤ 'Z'.val
  · have hlower : c.toLower = _ := dif_pos hupper
    have hval := congrArg (·.val.toNat) (hlower.symm.trans h)
    have hle : c.toNat ≤ 90 := hupper.2
    simp at hval
    omega
  · exact (dif_neg hupper).symm.trans h

theorem nul_mem_lower {s : String} : '\x00' ∈ (lower s).toList ↔ '\x00' ∈ s.toList := by
  rw [lower, String.toList_map, List.mem_map]
  constructor
  · rintro ⟨c, hc, hlower⟩
    exact eq_nul_of_toLower hlower ▸ hc
  · exact fun h => ⟨_, h, rfl⟩

theorem nul_mem_trim {s : String} (h : '\x00' ∈ s.toList) : '\x00' ∈ (trim s).toList := by
  rw [trim, String.toList_ofList]
  exact mem_trimList h rfl

end Text

namespace Database

/-- No driver has a name with that character. -/
theorem nul_notMem_of_ofName {text : String} {d : Driver} (h : Driver.ofName text = .ok d) :
    '\x00' ∉ (Text.lower text).toList := by
  intro hmem
  have hnul : '\x00' ∈ (Text.lower (Text.trim text)).toList :=
    Text.nul_mem_lower.2 (Text.nul_mem_trim (Text.nul_mem_lower.1 hmem))
  rw [Driver.ofName] at h
  split at h
  case h_1 hname | h_2 hname =>
    rw [hname] at hnul
    exact absurd hnul (by decide +kernel)
  case h_3 => cases h

/-- No place can be reached whose name has that character, if no file can. -/
theorem nul_notMem_of_reachable {reachable : Target → Bool} {connection : String}
    (hnul : ∀ path : String, '\x00' ∈ path.toList → reachable (.file path) = false)
    (h : reachable (.ofText connection) = true) : '\x00' ∉ connection.toList := by
  intro hmem
  have htrim := Text.nul_mem_trim hmem
  rw [Target.ofText] at h
  split at h
  case h_1 hname | h_2 hname =>
    rw [hname] at htrim
    exact absurd htrim (by decide +kernel)
  case h_3 =>
    rw [hnul _ htrim] at h
    cases h

end Database

/-! ## Reading signatures -/

namespace DatabaseConfig

theorem toList_signature (c : DatabaseConfig) :
    c.signature.toList = (Text.lower c.driver).toList ++ '\x00' :: c.connection.toList := by
  simp [signature]

/-- Nothing else has the signature of a configuration that can be opened. -/
theorem eq_of_signature {c c' : DatabaseConfig} (hdriver : '\x00' ∉ (Text.lower c.driver).toList)
    (hconnection : '\x00' ∉ c.connection.toList) (h : c'.signature = c.signature) :
    Text.lower c'.driver = Text.lower c.driver ∧ c'.connection = c.connection := by
  have hlist := congrArg String.toList h.symm
  rw [toList_signature, toList_signature, List.append_cons_inj_of_notMem hdriver hconnection]
    at hlist
  exact ⟨String.toList_injective hlist.1.symm, String.toList_injective hlist.2.2.symm⟩

/-- Of two configurations with one connection, the drivers decide. -/
theorem signature_eq_iff {c c' : DatabaseConfig} (h : c.connection = c'.connection) :
    c.signature = c'.signature ↔ Text.lower c.driver = Text.lower c'.driver := by
  rw [← String.toList_inj, toList_signature, toList_signature, h, List.append_left_inj,
    String.toList_inj]

end DatabaseConfig

namespace SocketConfig

theorem toList_signature (c : SocketConfig) : c.signature.toList =
    c.protocol.name.toList ++ '/' :: (c.host.toList ++ ':' :: Json.intChars c.port) := by
  rw [Json.intChars_natCast]
  simp [signature]

theorem colon_notMem_intChars (n : Nat) : ':' ∉ Json.intChars n := by
  rw [Json.intChars_natCast]
  intro h
  exact absurd (Nat.isDigit_of_mem_toDigits (by decide) (by decide) h) (by decide)

/-- **Sockets share a signature only if they have one address.** -/
theorem eq_of_signature {c c' : SocketConfig} (h : c'.signature = c.signature) :
    c'.protocol = c.protocol ∧ c'.host = c.host ∧ c'.port = c.port := by
  have hslash (p : SocketProtocol) : '/' ∉ p.name.toList := by cases p <;> decide +kernel
  have hlist := congrArg String.toList h
  rw [toList_signature, toList_signature] at hlist
  obtain ⟨hname, hrest⟩ := Text.cons_unique_of_first (hslash _) (hslash _) hlist
  obtain ⟨hhost, hport⟩ := Text.cons_unique_of_last (colon_notMem_intChars _)
    (colon_notMem_intChars _) hrest
  refine ⟨?_, String.toList_injective hhost, Json.intChars_natCast_injective hport⟩
  have hnames : c'.protocol.name = c.protocol.name := String.toList_injective hname
  cases hp : c'.protocol <;> cases hp' : c.protocol <;> rw [hp, hp'] at hnames <;>
    first | rfl | exact absurd hnames (by decide)

end SocketConfig

/-! ## What is asked for -/

/-- What a configuration asks for, among what has its kind. -/
inductive CapabilityIdentity where
  | named (name : String)
  | database (driver connection : String)
  | httpClient (c : HttpClientConfig)
  | address (protocol : SocketProtocol) (host : String) (port : Nat)
deriving DecidableEq

namespace CapabilityConfig

/-- What a configuration asks for, apart from what does not tell capabilities apart. -/
def identity : CapabilityConfig → CapabilityIdentity
  | queue c => .named c.name
  | pipe c | lock c | cache c | eventBus c => .named c.name
  | database c => .database (Text.lower c.driver) c.connection
  | httpClient c => .httpClient c
  | socket c => .address c.protocol c.host c.port

/-- Whether a socket of one's own is asked for. -/
def Dials : CapabilityConfig → Prop
  | socket c => c.mode = .dial
  | _ => False

variable {c c' : CapabilityConfig} {k : CapabilityKey}

theorem kind_of_key? (h : c.key? = some k) : k.kind = c.kind := by
  cases c with
  | lock => cases h
  | socket c =>
    rw [key?] at h
    split at h <;> cases h
    rfl
  | _ => cases h; rfl

/-- Whoever asks neither for a lock nor for a socket of their own shares what they get. -/
theorem eq_lock_of_key? (h : c.key? = none) (hdials : ¬ c.Dials) : ∃ n, c = .lock n := by
  cases c with
  | lock n => exact ⟨n, rfl⟩
  | socket c =>
    rw [key?] at h
    split at h
    · rename_i hmode
      exact absurd hmode hdials
    · cases h
  | _ => cases h

/-- **A key tells what is asked for**, if anybody can open it. -/
theorem identity_of_key {reachable : Database.Target → Bool}
    (hnul : ∀ path : String, '\x00' ∈ path.toList → reachable (.file path) = false)
    (hopens : c.Opens reachable) (hc : c.key? = some k) (hc' : c'.key? = some k) :
    c'.kind = c.kind ∧ c'.identity = c.identity := by
  have hkind : c'.kind = c.kind := (kind_of_key? hc').symm.trans (kind_of_key? hc)
  refine ⟨hkind, ?_⟩
  have hkey : c'.key? = c.key? := hc'.trans hc.symm
  cases c <;> cases c' <;> cases hkind
  case queue | pipe | cache | eventBus =>
    exact congrArg (fun k => CapabilityIdentity.named k.signature) (Option.some.inj hkey)
  case lock => cases hc
  case database c c' =>
    obtain ⟨⟨d, hdriver⟩, hreachable⟩ := hopens
    obtain ⟨hlower, hconnection⟩ := DatabaseConfig.eq_of_signature
      (Database.nul_notMem_of_ofName hdriver) (Database.nul_notMem_of_reachable hnul hreachable)
      (congrArg CapabilityKey.signature (Option.some.inj hkey))
    rw [identity, identity, hlower, hconnection]
  case httpClient c c' =>
    rw [identity, identity, HttpClientConfig.signature_injective
      (congrArg CapabilityKey.signature (Option.some.inj hkey))]
  case socket c c' =>
    obtain ⟨protocol, _ | _, host, port⟩ := c
    · cases hc
    obtain ⟨protocol', _ | _, host', port'⟩ := c'
    · cases hc'
    obtain ⟨hprotocol, hhost, hport⟩ := SocketConfig.eq_of_signature
      (congrArg CapabilityKey.signature (Option.some.inj hkey))
    simp only at hprotocol hhost hport
    rw [identity, identity, hprotocol, hhost, hport]

end CapabilityConfig

namespace Callers

variable {ε : Type} {config : RegistryConfig} {reachable : Database.Target → Bool} {s : Callers ε}

/-- **Whoever is given the same has asked for the same**: for something of one kind and of one
identity, whatever else stands in the configurations, at whatever times they have asked and whatever
others have done meanwhile. -/
theorem identity_of_same (run : Run config reachable s)
    (hnul : ∀ path : String, '\x00' ∈ path.toList → reachable (.file path) = false)
    {c₁ c₂ : CapabilityConfig} {a₁ a₂ : Capability} (h₁ : s.Answered c₁ (.ok a₁))
    (h₂ : s.Answered c₂ (.ok a₂)) (hdials₁ : ¬ c₁.Dials) (hdials₂ : ¬ c₂.Dials)
    (hsame : a₁.Same a₂) : c₁.kind = c₂.kind ∧ c₁.identity = c₂.identity := by
  -- a lock has no number, and what is shared has one
  have hlock {c : CapabilityConfig} {a : Capability} (h : s.Answered c (.ok a)) (hc : ¬ c.Dials)
      (hk : c.key? = none) : ∃ n, c = .lock n ∧ a = .lock n.name := by
    obtain ⟨n, rfl⟩ := CapabilityConfig.eq_lock_of_key? hk hc
    exact ⟨n, rfl, run.lock h⟩
  cases hk₁ : c₁.key? with
  | none =>
    obtain ⟨n₁, rfl, rfl⟩ := hlock h₁ hdials₁ hk₁
    cases hk₂ : c₂.key? with
    | none =>
      obtain ⟨n₂, rfl, rfl⟩ := hlock h₂ hdials₂ hk₂
      rcases hsame with heq | ⟨id, hid, -⟩
      · exact ⟨rfl, congrArg CapabilityIdentity.named (Capability.lock.inj heq)⟩
      · cases hid
    | some k₂ => exact absurd hsame.id?_eq.symm (run.numbered h₂ hk₂)
  | some k₁ =>
    cases hk₂ : c₂.key? with
    | none =>
      obtain ⟨n₂, rfl, rfl⟩ := hlock h₂ hdials₂ hk₂
      exact absurd hsame.id?_eq (run.numbered h₁ hk₁)
    | some k₂ =>
      obtain rfl := run.key_eq_of_same h₁ h₂ hk₁ hk₂ hsame
      obtain ⟨c, hk, hopens⟩ := run.opened h₁ hk₁
      obtain ⟨hkind₁, hid₁⟩ := CapabilityConfig.identity_of_key hnul hopens hk hk₁
      obtain ⟨hkind₂, hid₂⟩ := CapabilityConfig.identity_of_key hnul hopens hk hk₂
      exact ⟨hkind₁.trans hkind₂.symm, hid₁.trans hid₂.symm⟩

/-- Where no files can be opened, two callers share a database in memory.  They write its driver
differently, and want pools of different sizes. -/
theorem identity_of_same_memory : ∃ s : Callers Unit,
    Run {} (fun target => target = .memory) s ∧
    s.Answered (.database ⟨"SQLite", ":memory:", none⟩) (.ok (.database 0)) ∧
    s.Answered (.database ⟨"sqlite", ":memory:", some 2⟩) (.ok (.database 0)) ∧
    (CapabilityConfig.database ⟨"SQLite", ":memory:", none⟩).identity =
      (CapabilityConfig.database ⟨"sqlite", ":memory:", some 2⟩).identity := by
  have hlower : Text.lower "sqlite" = Text.lower "SQLite" :=
    String.toList_injective (by simp [Text.lower])
  have hkey : (CapabilityConfig.database ⟨"sqlite", ":memory:", some 2⟩).key? =
      (CapabilityConfig.database ⟨"SQLite", ":memory:", none⟩).key? := by
    simp only [CapabilityConfig.key?, DatabaseConfig.signature, hlower]
  have hfirst : (Registry.resolve (ε := Unit) { reachable := fun target => target = .memory }
      (.database ⟨"SQLite", ":memory:", none⟩)).1 = .ok (.database 0) := by decide +kernel
  obtain ⟨s, run, h₁, h₂⟩ :=
    Run.exists_two rfl hfirst (Registry.resolve_again rfl hkey hfirst)
  exact ⟨s, run, h₁, h₂,
    (identity_of_same run (fun _ _ => rfl) h₁ h₂ nofun nofun (.inl rfl)).2⟩

/-! ## Databases -/

/-- **Callers with the same connection** are given the same database if and only if they write its
driver in the same way, up to case.  Which driver it is does not count: it has several names, and
there may be blanks around them. -/
theorem database_eq_iff (run : Run config reachable s) {c₁ c₂ : DatabaseConfig} {a₁ a₂ : Capability}
    (h₁ : s.Answered (.database c₁) (.ok a₁)) (h₂ : s.Answered (.database c₂) (.ok a₂))
    (hconnection : c₁.connection = c₂.connection) :
    a₁ = a₂ ↔ Text.lower c₁.driver = Text.lower c₂.driver := by
  rw [← DatabaseConfig.signature_eq_iff hconnection]
  constructor
  · intro ha
    exact congrArg CapabilityKey.signature (run.key_eq_of_same h₁ h₂ rfl rfl (.inl ha))
  · intro hsignature
    refine run.eq_of_key h₁ h₂ rfl ?_
    rw [CapabilityConfig.key?, hsignature]

/-- A driver with and without capitals. -/
theorem database_eq_iff_memory : ∃ s : Callers Unit, Run {} (fun _ => true) s ∧
    s.Answered (.database ⟨"SQLite3", ":memory:", none⟩) (.ok (.database 0)) ∧
    s.Answered (.database ⟨"sqlite3", ":memory:", none⟩) (.ok (.database 0)) ∧
    Text.lower "SQLite3" = Text.lower "sqlite3" := by
  have hlower : Text.lower "sqlite3" = Text.lower "SQLite3" :=
    String.toList_injective (by simp [Text.lower])
  have hkey : (CapabilityConfig.database ⟨"sqlite3", ":memory:", none⟩).key? =
      (CapabilityConfig.database ⟨"SQLite3", ":memory:", none⟩).key? := by
    simp only [CapabilityConfig.key?, DatabaseConfig.signature, hlower]
  have hfirst : (Registry.resolve (ε := Unit) { reachable := fun _ => true }
      (.database ⟨"SQLite3", ":memory:", none⟩)).1 = .ok (.database 0) := by decide +kernel
  obtain ⟨s, run, h₁, h₂⟩ :=
    Run.exists_two rfl hfirst (Registry.resolve_again rfl hkey hfirst)
  exact ⟨s, run, h₁, h₂, (database_eq_iff run h₁ h₂ rfl).1 rfl⟩

/-- Two names of one driver, and two databases. -/
theorem database_of_alias : ∃ s : Callers Unit, Run {} (fun _ => true) s ∧
    s.Answered (.database ⟨"sqlite", ":memory:", none⟩) (.ok (.database 0)) ∧
    s.Answered (.database ⟨"sqlite3", ":memory:", none⟩) (.ok (.database 1)) ∧
    Database.Driver.ofName "sqlite" = .ok .sqlite ∧
    Database.Driver.ofName "sqlite3" = .ok .sqlite := by
  have hfirst : (Registry.resolve (ε := Unit) { reachable := fun _ => true }
      (.database ⟨"sqlite", ":memory:", none⟩)).1 = .ok (.database 0) := by decide +kernel
  have hsecond : ((Registry.resolve (ε := Unit) { reachable := fun _ => true }
      (.database ⟨"sqlite", ":memory:", none⟩)).2.resolve
      (.database ⟨"sqlite3", ":memory:", none⟩)).1 = .ok (.database 1) := by decide +kernel
  obtain ⟨s, run, h₁, h₂⟩ := Run.exists_two rfl hfirst hsecond
  exact ⟨s, run, h₁, h₂, by decide +kernel, by decide +kernel⟩

end Callers

end ScriptHost
