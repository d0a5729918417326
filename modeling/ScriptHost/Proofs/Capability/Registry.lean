import ScriptHost.Capability.Use
import ScriptHost.Proofs.Capability.Sharing
import ScriptHost.Proofs.Clock

/-!
# What a registry builds, and what it leaves alone

The resources of a registry go by the order in which they were built.  So that a handle still leads
where it has always led, little has to be known of the operations in between:

* **Using** a capability, waiting and giving locks back change resources in their places, and of
  each of them there is one of its kind afterwards; it may take time (`Registry.Undisturbed`).
* **Building** puts one resource behind all others, and its number into a handle of its kind.  It
  adds nothing if it fails, or if a lock is asked for (`Registry.Built`).

Neither of them touches the slots, and a build does not look at them (`Registry.build_setTable`).  A
database that has been built could be opened, for its driver has a name and its place can be reached
(`CapabilityConfig.Opens`).

Where nobody calls before the one before is done (`Registry.inTurn`), nobody ever finds a slot
locked (`Registry.Idle.resolve`), and under one key all get the same (`Registry.resolve_again`).
-/

set_option autoImplicit false

namespace ScriptHost

variable {ε : Type}

/-! ## Kinds of resources -/

/-- What a resource is.  There are no resources that are pipes, for a pipe is a queue. -/
def Resource.kind : Resource ε → CapabilityKind
  | queue _ => .queue
  | cache _ => .cache
  | eventBus _ => .eventBus
  | database _ => .database
  | httpClient _ => .httpClient
  | socket _ => .socket

/-- What the resource behind a handle is. -/
def Capability.base : Capability → CapabilityKind
  | pipe _ => .queue
  | a => a.kind

/-- If there is a resource behind a handle, it is what it should be. -/
def Capability.Backed (kinds : List CapabilityKind) (a : Capability) : Prop :=
  ∀ id, a.id? = some id → kinds[id]? = some a.base

theorem Capability.Backed.append {kinds : List CapabilityKind} {a : Capability}
    (h : a.Backed kinds) (more : List CapabilityKind) : a.Backed (kinds ++ more) := fun id hid => by
  rw [List.getElem?_append_left (List.getElem?_eq_some_iff.1 (h id hid)).1, h id hid]

theorem Capability.backed_last {kinds : List CapabilityKind} {a : Capability}
    (h : a.id? = some kinds.length) : a.Backed (kinds ++ [a.base]) := fun id hid => by
  rw [Option.some.inj (hid.symm.trans h), List.getElem?_concat_length]

namespace Registry

/-- What the resources of a registry are, by their numbers. -/
def kinds (r : Registry ε) : List CapabilityKind := r.resources.map Resource.kind

/-! ## Using what is there -/

/-- What has been built is still there, and nothing has been added. -/
structure Undisturbed (r r' : Registry ε) : Prop where
  table : r'.table = r.table
  reachable : r'.reachable = r.reachable
  kinds : r'.kinds = r.kinds
  clock : r.clock.Passes r'.clock

namespace Undisturbed

theorem refl (r : Registry ε) : Undisturbed r r := ⟨rfl, rfl, rfl, .refl _⟩

theorem trans {r r' r'' : Registry ε} (h : Undisturbed r r') (h' : Undisturbed r' r'') :
    Undisturbed r r'' :=
  ⟨h'.table.trans h.table, h'.reachable.trans h.reachable, h'.kinds.trans h.kinds,
    h.clock.trans h'.clock⟩

end Undisturbed

theorem undisturbed_setResource {r : Registry ε} {id : Nat} {x y : Resource ε}
    (hx : r.resource? id = some x) (hy : y.kind = x.kind) : Undisturbed r (r.setResource id y) := by
  refine ⟨rfl, rfl, ?_, .refl _⟩
  obtain ⟨hid, hget⟩ := List.getElem?_eq_some_iff.1 hx
  rw [kinds, kinds, setResource, List.map_set, hy]
  conv_lhs => rw [← hget, ← List.getElem_map Resource.kind (h := by simpa using hid)]
  exact List.set_getElem_self _

theorem undisturbed_advance (r : Registry ε) (now : Nat) :
    Undisturbed r { r with clock := r.clock.advanceTo now } :=
  ⟨rfl, rfl, rfl, r.clock.passes_advanceTo now⟩

theorem undisturbed_onWaiting (r : Registry ε) (w : Waiting)
    (f : (P : Monitor.Protocol) → [DecidableEq P.Cond] → Nat → Monitor.Machine P →
      Option P.Reply × Monitor.Machine P) : Undisturbed r (r.onWaiting w f).2 := by
  cases w with
  | lock caller => exact ⟨rfl, rfl, rfl, r.clock.passes_advanceTo _⟩
  | queue id caller =>
    rw [onWaiting]
    split
    · rename_i hx
      exact (r.undisturbed_advance _).trans (undisturbed_setResource hx rfl)
    · exact .refl r

theorem undisturbed_started {r : Registry ε} {p : Option (Outcome (UseReply ε)) × Registry ε}
    (h : Undisturbed r p.2) (w : Waiting) : Undisturbed r (started w p).2 := by
  obtain ⟨_ | reply, r'⟩ := p <;> exact h

theorem undisturbed_startQueue (r : Registry ε) (id : Nat) (c : Queue.Call Value) (d : Deadline) :
    Undisturbed r (r.startQueue id c d).2 := by
  rw [startQueue]
  split
  · rename_i hx
    refine undisturbed_started (.trans (undisturbed_setResource hx ?_) (undisturbed_onWaiting ..)) _
    rfl
  · exact .refl r

theorem undisturbed_startLock (r : Registry ε) (c : LockTable.Call) (d : Deadline) :
    Undisturbed r (r.startLock c d).2 := by
  have hlocks : Undisturbed r { r with locks := ({ r.locks with clock := r.clock }.start c d).2 } :=
    ⟨rfl, rfl, rfl, .refl _⟩
  exact undisturbed_started (hlocks.trans (undisturbed_onWaiting ..)) _

theorem undisturbed_onDatabase {α : Type} (r : Registry ε) (id : Nat) (reply : α → UseReply ε)
    (f : Database Database.Store.engine → Database.Ending α × Database Database.Store.engine) :
    Undisturbed r (r.onDatabase id reply f).2 := by
  rw [onDatabase]
  split
  · rename_i hx
    have h (db : Database Database.Store.engine) := (r.undisturbed_advance db.clock.now).trans
      (undisturbed_setResource (y := .database db) hx rfl)
    simp only
    split <;> exact h _
  · exact .refl r

theorem undisturbed_onBus (r : Registry ε) (id : Nat) (c : Bus.Call Value ε)
    (entry : Bus.Reply Value → ε) : Undisturbed r (r.onBus id c entry).2 := by
  rw [onBus]
  split
  · rename_i hx
    exact (r.undisturbed_advance _).trans (undisturbed_setResource hx rfl)
  · exact .refl r

/-- **Using a capability** builds nothing. -/
theorem undisturbed_start (r : Registry ε) (c : Capability) (u : Use ε) (d : Deadline) :
    Undisturbed r (r.start c u d).2 := by
  rw [start.eq_def]
  split
  case h_1 | h_2 => exact undisturbed_startQueue ..
  case h_3 | h_4 | h_14 => split <;> exact .refl r
  case h_5 | h_6 => exact undisturbed_startLock ..
  case h_7 | h_8 | h_15 => exact .refl r
  case h_9 =>
    split
    · rename_i hx
      exact undisturbed_setResource hx rfl
    · exact .refl r
  case h_10 =>
    split
    · rename_i hx
      split
      · exact undisturbed_setResource hx rfl
      · exact .refl r
    · rename_i hx
      exact undisturbed_setResource hx rfl
    · exact .refl r
  case h_11 => exact undisturbed_onBus ..
  case h_12 | h_13 => exact undisturbed_onDatabase ..

theorem undisturbed_releaseLocks (r : Registry ε) (h : Holder) :
    Undisturbed r (r.releaseLocks h).2 := ⟨rfl, rfl, rfl, .refl _⟩

end Registry

/-! ## Building -/

namespace CapabilityConfig

/-- A database can be opened only under the name of a driver and at a place that can be reached. -/
def Opens (reachable : Database.Target → Bool) : CapabilityConfig → Prop
  | .database c => (∃ driver, Database.Driver.ofName c.driver = .ok driver) ∧
    reachable (.ofText c.connection) = true
  | _ => True

/-- What is made for whom.  A socket that listens is of its protocol, and one that dials is too. -/
def Makes : CapabilityConfig → Capability → Prop
  | .queue _, .queue _ | .pipe _, .pipe _ | .cache _, .cache _ | .eventBus _, .eventBus _
  | .database _, .database _ | .httpClient _, .httpClient _ => True
  | .lock n, a => a = .lock n.name
  | .socket c, .listener _ => c.protocol = .tcp ∧ c.mode = .listen
  | .socket c, .connection _ => c.protocol = .tcp ∧ c.mode = .dial
  | .socket c, .datagrams _ => c.protocol = .udp
  | _, _ => False

end CapabilityConfig

namespace Database

variable {E : Engine} {db db' : Database E}

/-- A pool without a free connection lends one only if the engine opens it. -/
theorem connect_of_checkout {d : Deadline} {c : Nat} (h : db.checkout d = (.returned (.ok c), db'))
    (hidle : db.pool.idle = []) : (E.connect db.store db.opened).1 = .ok () := by
  rw [checkout, callPool] at h
  simp only [Pool.attempt, hidle] at h
  by_cases hzero : db.pool.maxSize = 0
  · simp only [hzero, if_true] at h
    cases h
  · by_cases hfull : db.pool.maxSize ≤ db.pool.created
    · simp only [hzero, hfull, if_true, if_false, Pool.giveUp] at h
      cases h
    · simp only [hzero, hfull, if_false] at h
      split at h
      · rename_i hc
        rw [hc]
      · cases h

/-- A database is opened under the name of a driver, and to a place at which the engine opens a
connection. -/
theorem connect_of_open {clock : Clock} {driver connection : String} {poolSize : Nat}
    {store : Target → E.State} (h : Database.open clock driver connection poolSize store = .ok db) :
    (∃ d, Driver.ofName driver = .ok d) ∧
      (E.connect (store (.ofText connection)) 0).1 = .ok () := by
  rw [Database.open] at h
  split at h
  · cases h
  · rename_i d hdriver
    have hidle : (Pool.ofTarget (.ofText connection) poolSize).idle = [] := by
      cases Target.ofText connection <;> rfl
    refine ⟨⟨d, hdriver⟩, ?_⟩
    simp only [withConnection] at h
    split at h
    · rename_i hping
      split at hping
      · cases hping
      · cases hping
      · rename_i hcheckout
        exact connect_of_checkout hcheckout hidle
    · cases h
    · cases h

theorem Store.reachable_of_connect {st : Store} {c : Nat} (h : (st.connect c).1 = .ok ()) :
    st.reachable = true := by
  rw [connect] at h
  split at h
  · assumption
  · cases h

end Database

namespace Registry

/-- What a build does: it keeps one more resource, which nobody has yet, or nothing at all. -/
inductive Built (r : Registry ε) (c : CapabilityConfig) : Outcome Capability → Registry ε → Prop
  | kept {a : Capability} (x : Resource ε) : a.id? = some r.resources.length → c.Opens r.reachable →
      c.Makes a → x.kind = a.base → Built r c (.ok a) { r with resources := r.resources ++ [x] }
  | lock {n : NamedConfig} : c = .lock n → Built r c (.ok (.lock n.name)) r
  | failed (e : Failure) : Built r c (.error e) r

theorem built_build (r : Registry ε) (c : CapabilityConfig) :
    Built r c (r.build c).1 (r.build c).2 := by
  cases c with
  | queue | pipe | eventBus => exact .kept _ rfl trivial trivial rfl
  | lock n => exact .lock rfl
  | cache =>
    rw [build]
    split
    · exact .kept _ rfl trivial trivial rfl
    · split
      · exact .kept _ rfl trivial trivial rfl
      · exact .failed _
  | database c =>
    rw [build]
    split
    · rename_i hopen
      obtain ⟨hdriver, hconnect⟩ := Database.connect_of_open hopen
      exact .kept _ rfl ⟨hdriver, Database.Store.reachable_of_connect hconnect⟩ trivial rfl
    · exact .failed _
  | httpClient c =>
    rw [build]
    split
    · exact .kept _ rfl trivial trivial rfl
    · exact .failed _
  | socket c =>
    rw [build, openSocket]
    split
    · rename_i hprotocol hmode
      exact .kept _ rfl trivial ⟨hprotocol, hmode⟩ rfl
    · rename_i hprotocol _
      exact .kept _ rfl trivial hprotocol rfl
    · rename_i hprotocol hmode
      split
      · exact .kept _ rfl trivial ⟨hprotocol, hmode⟩ rfl
      · exact .failed _
    · rename_i hprotocol _
      exact .kept _ rfl trivial hprotocol rfl

/-- A build does not look at the slots. -/
theorem build_setTable (r : Registry ε) (c : CapabilityConfig)
    (table : SlotTable CapabilityKey Capability) :
    { r with table }.build c = ((r.build c).1, { (r.build c).2 with table }) := by
  cases c with
  | queue | pipe | eventBus | lock => rfl
  | cache =>
    simp only [build]
    cases r.config.cacheSweepIntervalMs.filter (0 < ·) with
    | none => rfl
    | some ms =>
      simp only
      cases Cache.startSweeper r.clock {} ms <;> rfl
  | database c =>
    simp only [build]
    split <;> rfl
  | httpClient c =>
    simp only [build]
    cases HttpClient.connect c <;> rfl
  | socket c =>
    have hanswers : { r with table }.answers c = r.answers c := rfl
    obtain ⟨_ | _, _ | _, host, port⟩ := c
    · simp only [build, openSocket, hanswers]
      split <;> rfl
    all_goals rfl

namespace Built

variable {r r' : Registry ε} {c : CapabilityConfig} {a : Outcome Capability}

theorem table (h : Built r c a r') : r'.table = r.table := by
  cases h <;> rfl

theorem reachable (h : Built r c a r') : r'.reachable = r.reachable := by
  cases h <;> rfl

theorem clock (h : Built r c a r') : r'.clock = r.clock := by
  cases h <;> rfl

/-- What is there is there afterwards. -/
theorem kinds (h : Built r c a r') : ∃ more, r'.kinds = r.kinds ++ more := by
  cases h with
  | kept x => exact ⟨[x.kind], List.map_append⟩
  | lock | failed => exact ⟨[], (List.append_nil _).symm⟩

/-- A build that succeeds makes what was asked for. -/
theorem makes {b : Capability} (h : Built r c (.ok b) r') : c.Makes b := by
  cases h with
  | kept x _ _ hmakes _ => exact hmakes
  | lock hlock =>
    rw [hlock]
    rfl

theorem backed {b : Capability} (h : Built r c (.ok b) r') : b.Backed r'.kinds := by
  cases h with
  | kept x hid _ _ hkind =>
    rw [Registry.kinds, List.map_append, List.map_singleton, hkind]
    exact Capability.backed_last (hid.trans (congrArg some (List.length_map _).symm))
  | lock => exact nofun

end Built

/-- Resolving takes no time. -/
theorem clock_resolve (r : Registry ε) (c : CapabilityConfig) :
    (r.resolve c).2.clock = r.clock := by
  rw [resolve]
  cases c.key? with
  | none => exact (r.built_build c).clock
  | some key =>
    simp only [shared, SlotTable.shared]
    split
    · rfl
    · exact (r.built_build c).clock

theorem clock_obtain (r : Registry ε) (c : CapabilityConfig) : (r.obtain c).2.clock = r.clock :=
  r.clock_resolve c

theorem clock_resolveNamed (r : Registry ε) (kind : String) (config : Json) :
    (r.resolveNamed kind config).2.clock = r.clock := by
  rw [resolveNamed]
  split
  · rfl
  · split
    · rfl
    · exact r.clock_obtain _

/-! ## Calls that follow one another -/

/-- Nobody holds the lock of a slot. -/
def Idle (r : Registry ε) : Prop := ∀ k, (r.table.slot k).holder = none

/-- One call after another: what comes of each, and the registry afterwards. -/
def inTurn (r : Registry ε) :
    List CapabilityConfig → List (CapabilityConfig × Outcome Capability) × Registry ε
  | [] => ([], r)
  | c :: cs =>
    ((c, (r.resolve c).1) :: ((r.resolve c).2.inTurn cs).1, ((r.resolve c).2.inTurn cs).2)

/-- What has been given once is given again. -/
theorem resolve_again {r : Registry ε} {c c' : CapabilityConfig} {k : CapabilityKey}
    {a : Capability} (hk : c.key? = some k) (hk' : c'.key? = some k)
    (h : (r.resolve c).1 = .ok a) : ((r.resolve c).2.resolve c').1 = .ok a := by
  have hslot : ((r.resolve c).2.table.slot k).content = some a := by
    rw [Registry.resolve, hk] at h ⊢
    simp only [shared, SlotTable.shared, SlotTable.slot_find] at h ⊢
    cases hs : (r.table.slot k).content with
    | some b =>
      simp only [hs] at h
      rw [SlotTable.slot_find, hs, Except.ok.inj h]
    | none =>
      simp only [hs] at h
      rw [SlotTable.slot_set_self (SlotTable.has_find ..), h]
      rfl
  generalize (r.resolve c).2 = r' at hslot ⊢
  rw [Registry.resolve, hk']
  simp only [shared, SlotTable.shared, SlotTable.slot_find, hslot]

theorem Idle.resolve {r : Registry ε} (h : r.Idle) (c : CapabilityConfig) :
    (r.resolve c).2.Idle := by
  rw [Registry.resolve]
  cases c.key? with
  | none =>
    intro k
    show ((r.build c).2.table.slot k).holder = none
    rw [(r.built_build c).table]
    exact h k
  | some key =>
    intro k
    simp only [shared, SlotTable.shared, SlotTable.slot_find]
    cases hs : (r.table.slot key).content with
    | some a => exact (congrArg Slot.holder (SlotTable.slot_find ..)).trans (h k)
    | none =>
      simp only [SlotTable.slot_set (SlotTable.has_find r.table key), SlotTable.slot_find]
      split
      · cases (r.build c).1 <;> rfl
      · exact h k

end Registry

end ScriptHost
