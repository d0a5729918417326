import ScriptHost.Database.Lending
import ScriptHost.Proofs.Database.Store
import ScriptHost.Proofs.Monitor.Run

/-!
# What a pool has lent

A pool counts the places that are taken, by connections and by attempts to open one, and keeps the
connections that nobody has.  What is out — places and connections that some user is responsible for
— the pool does not know.  It can be read off the users: from what they have in hand, and from the
calls that they have made and not yet got back from.  These are their *stakes*.

A user may be at any step when others go on, so nothing can be said of one user and the pool alone.
What is kept is the balance of the pool and all the stakes: a call on the pool moves one of them in
or out, and whatever else a user does only changes what it does with its stake.  A user that breaks
down while it sets its connection up keeps its stake for ever.

## What is here

* `Balanced` — the places are those of the free connections and of the stakes, they are not too
  many, and no connection is at two places.
* `Balanced.attempt` — a call on the pool keeps the balance, with the stake that the caller had
  before it and the one that it has after it.
* `Lending.Sound.step` — so does every step of a user.
* `Lending.Tidy.step` — a connection inside of a transaction is one that somebody makes requests on.
* `balance_of_run` — what holds after every run, for every engine that keeps its promises.
* `Lending.run_checkout`, `Lending.run_release` — what `Database.checkout` and `Database.release` do
  is a run of one user that is alone.
-/

set_option autoImplicit false

namespace ScriptHost.Database

/-! ## Stakes -/

/-- What a user is responsible for. -/
inductive Stake where
  | place
  | connection (id : Nat)
  /-- A connection that nobody can use any more. -/
  | loss (id : Nat)
deriving DecidableEq

namespace Stake

/-- The connection that somebody has. -/
def connection? : Stake → Option Nat
  | connection c => some c
  | place | loss _ => none

/-- The connection, if it has been opened. -/
def number? : Stake → Option Nat
  | connection c | loss c => some c
  | place => none

/-- Whether a connection is gone. -/
def isLoss : Stake → Bool
  | loss _ => true
  | place | connection _ => false

/-- The stake of a user with something in hand. -/
def ofHand : Hand → Stake
  | .place _ => place
  | .fresh c _ | .reused c _ | .ready c | .stuck c => connection c
  | .lost c => loss c

/-- The stake of a caller of the pool: what it brings until it has its reply, and then what it gets.
-/
def ofStanding? : Pool.Call × Option Pool.Reply → Option Stake
  | (_, some reply) => (Hand.ofReply .never reply).map ofHand
  | (.giveBack c, none) => some (connection c)
  | (.failed, none) => some place
  | (.reserve, none) => none

end Stake

/-- The connections among some stakes, with the lost ones. -/
def numbersOf (stakes : List Stake) : List Nat := stakes.filterMap Stake.number?

/-- Every stake is a place, a connection or a loss. -/
theorem length_stakes (stakes : List Stake) :
    stakes.length = (stakes.filterMap Stake.connection?).length + stakes.count .place +
      stakes.countP Stake.isLoss := by
  induction stakes with
  | nil => rfl
  | cons stake stakes ih =>
    cases stake <;>
      simp only [List.length_cons, List.filterMap_cons, Stake.connection?, List.count_cons,
        List.countP_cons, Stake.isLoss, beq_self_eq_true, if_true, reduceCtorEq, beq_iff_eq,
        if_false, Bool.false_eq_true] <;> omega

/-- The connections among some stakes are in the order of all that have been opened. -/
theorem connections_sublist (stakes : List Stake) :
    (stakes.filterMap Stake.connection?).Sublist (numbersOf stakes) := by
  induction stakes with
  | nil => exact .slnil
  | cons stake stakes ih =>
    cases stake with
    | place => exact ih
    | connection c => exact ih.cons_cons c
    | loss c => exact ih.cons c

namespace Lending

variable {E : Engine}

/-- What all the users are responsible for. -/
def stakes (l : Lending E) : List Stake :=
  l.pool.standings.filterMap Stake.ofStanding? ++ l.hands.map Stake.ofHand

/-- The connections that are checked out. -/
def connections (l : Lending E) : List Nat := l.stakes.filterMap Stake.connection?

/-- How many connections are being opened. -/
def openings (l : Lending E) : Nat := l.stakes.count .place

/-- How many connections are gone. -/
def losses (l : Lending E) : Nat := l.stakes.countP Stake.isLoss

end Lending

/-! ## The balance of a pool and its users -/

theorem Pool.maxSize_attempt {call : Pool.Call} {reply : Pool.Reply}
    {signal : Monitor.Signal Unit} {p p' : Pool} (h : Pool.attempt call p = .done p' reply signal) :
    p'.maxSize = p.maxSize := by
  cases call with
  | reserve =>
    rw [Pool.attempt] at h
    split at h
    · cases h
      rfl
    · split at h
      · cases h
        rfl
      · split at h <;> cases h
        rfl
  | failed | giveBack =>
    cases h
    rfl

/-- A pool, the number of connections opened so far, and what users have of it. -/
structure Balanced (p : Pool) (opened : Nat) (stakes : List Stake) : Prop where
  places : p.created = p.idle.length + stakes.length
  bounded : p.created ≤ p.maxSize
  apart : (p.idle ++ numbersOf stakes).Perm (List.range opened)

namespace Balanced

variable {p : Pool} {opened : Nat} {stakes stakes' : List Stake}

theorem perm (h : Balanced p opened stakes) (hp : stakes.Perm stakes') :
    Balanced p opened stakes' where
  places := by rw [h.places, hp.length_eq]
  bounded := h.bounded
  apart := ((hp.filterMap _).symm.append_left p.idle).trans h.apart

/-- A connection that has been opened gets the next number. -/
theorem connect (h : Balanced p opened (.place :: stakes)) :
    Balanced p (opened + 1) (.connection opened :: stakes) where
  places := h.places
  bounded := h.bounded
  apart := by
    rw [List.range_succ]
    exact (List.perm_middle.trans (h.apart.cons opened)).trans
      (List.perm_append_singleton opened _).symm

/-- A connection that is lost has the number that it had. -/
theorem lose {c : Nat} (h : Balanced p opened (.connection c :: stakes)) :
    Balanced p opened (.loss c :: stakes) :=
  ⟨h.places, h.bounded, h.apart⟩

/-- **A call on the pool** keeps the balance: what the caller brings is taken in, and what it gets
is taken out. -/
theorem attempt {call : Pool.Call} {reply : Pool.Reply} {signal : Monitor.Signal Unit} {p' : Pool}
    (h : Balanced p opened ((Stake.ofStanding? (call, none)).toList ++ stakes))
    (ha : Pool.attempt call p = .done p' reply signal) :
    Balanced p' opened ((Stake.ofStanding? (call, some reply)).toList ++ stakes) := by
  obtain ⟨places, bounded, apart⟩ := h
  cases call with
  | reserve =>
    simp only [Stake.ofStanding?, Option.toList_none, List.nil_append] at places apart
    rw [Pool.attempt] at ha
    split at ha
    · cases ha
      exact ⟨places, bounded, apart⟩
    · split at ha
      · -- a free connection
        rename_i c idle hi
        cases ha
        rw [hi] at places apart
        refine ⟨?_, bounded, List.perm_middle.trans apart⟩
        simp only [Stake.ofStanding?, Hand.ofReply, Option.map_some, Option.toList_some,
          List.singleton_append, List.length_cons] at places ⊢
        omega
      · split at ha
        · cases ha
        · -- a place for one more
          rename_i hfree
          cases ha
          refine ⟨?_, Nat.lt_of_not_le hfree, apart⟩
          simp only [Stake.ofStanding?, Hand.ofReply, Option.map_some, Option.toList_some,
            List.singleton_append, List.length_cons]
          omega
  | failed =>
    cases ha
    refine ⟨?_, Nat.le_trans (Nat.sub_le ..) bounded, apart⟩
    simp only [Stake.ofStanding?, Hand.ofReply, Option.map_none, Option.toList_none,
      Option.toList_some, List.singleton_append, List.nil_append, List.length_cons] at places ⊢
    omega
  | giveBack c =>
    cases ha
    refine ⟨?_, bounded, List.perm_middle.symm.trans apart⟩
    simp only [Stake.ofStanding?, Hand.ofReply, Option.map_none, Option.toList_none,
      Option.toList_some, List.singleton_append, List.nil_append, List.length_cons] at places ⊢
    omega

/-- A caller that gives up has nothing, as before. -/
theorem giveUp {call : Pool.Call} {on : Unit} (ha : Pool.attempt call p = .blocked on) :
    Stake.ofStanding? (call, some (Pool.giveUp call)) = Stake.ofStanding? (call, none) := by
  cases call with
  | reserve => rfl
  | failed | giveBack => cases ha

end Balanced

/-! ## The users -/

namespace Lending

variable {E : Engine} {l l' : Lending E} {size lost : Nat}

theorem filterMap_middle_perm {α β : Type} (f : α → Option β) (before behind : List α) (a : α) :
    ((before ++ a :: behind).filterMap f).Perm
      ((f a).toList ++ (before ++ behind).filterMap f) := by
  refine (List.perm_middle.filterMap f).trans ?_
  cases h : f a with
  | none => rw [List.filterMap_cons_none h]; exact .refl _
  | some b => rw [List.filterMap_cons_some h]; exact .refl _

/-- The stakes are that of one caller and those of everybody else. -/
theorem stakes_middle {before behind : List (Pool.Call × Option Pool.Reply)}
    {standing : Pool.Call × Option Pool.Reply}
    (h : l.pool.standings = before ++ standing :: behind) :
    l.stakes.Perm ((Stake.ofStanding? standing).toList ++
      ((before ++ behind).filterMap Stake.ofStanding? ++ l.hands.map Stake.ofHand)) := by
  rw [stakes, h, ← List.append_assoc]
  exact (filterMap_middle_perm ..).append_right _

theorem stakes_call (l : Lending E) (c : Pool.Call) (deadline : Deadline) :
    (l.call c deadline).stakes.Perm ((Stake.ofStanding? (c, none)).toList ++ l.stakes) := by
  have h : (l.call c deadline).pool.standings = l.pool.standings ++ (c, none) :: [] :=
    List.map_append
  have hp := stakes_middle h
  rwa [List.append_nil] at hp

theorem stakes_drop {i : Nat} {hand : Hand} (h : l.hands[i]? = some hand) :
    l.stakes.Perm (Stake.ofHand hand :: (l.drop i).stakes) := by
  obtain ⟨hi, rfl⟩ := List.getElem?_eq_some_iff.1 h
  have hp := ((List.getElem_cons_eraseIdx_perm hi).map Stake.ofHand).symm
  exact (hp.append_left _).trans List.perm_middle

theorem stakes_hold {i : Nat} {hand : Hand} (h : l.hands[i]? = some hand) (hand' : Hand) :
    (l.hold i hand').stakes.Perm (Stake.ofHand hand' :: (l.drop i).stakes) := by
  obtain ⟨hi, -⟩ := List.getElem?_eq_some_iff.1 h
  have hi' : i < (l.hold i hand').hands.length := by
    rw [hold, List.length_set]
    exact hi
  have hhand : (l.hold i hand').hands[i]? = some hand' := List.getElem?_set_self hi
  have hp := stakes_drop hhand
  rwa [show (l.hold i hand').drop i = l.drop i from congrArg (fun hands => { l with hands })
    (List.eraseIdx_set_eq ..)] at hp

/-- A user that has nothing in hand any more but makes a call has the same stake as before. -/
theorem stakes_handIn {i : Nat} {hand : Hand} {c : Pool.Call} (deadline : Deadline)
    (h : l.hands[i]? = some hand) (hc : Stake.ofStanding? (c, none) = some (Stake.ofHand hand)) :
    ((l.drop i).call c deadline).stakes.Perm l.stakes := by
  refine (stakes_call ..).trans ?_
  rw [hc]
  exact (stakes_drop h).symm

/-- What the others have in hand is left alone. -/
theorem mem_drop_of_ne {i : Nat} {hand other : Hand} (h : l.hands[i]? = some hand)
    (hne : hand ≠ other) (hmem : other ∈ l.hands) : other ∈ (l.drop i).hands := by
  obtain ⟨j, hj⟩ := List.mem_iff_getElem?.1 hmem
  refine List.mem_eraseIdx_iff_getElem?.2 ⟨j, ?_, hj⟩
  rintro rfl
  rw [h] at hj
  exact hne (Option.some_inj.1 hj)

theorem mem_hold_of_ne {i : Nat} {hand other : Hand} (h : l.hands[i]? = some hand)
    (hne : hand ≠ other) (hmem : other ∈ l.hands) (hand' : Hand) :
    other ∈ (l.hold i hand').hands := by
  obtain ⟨j, hj⟩ := List.mem_iff_getElem?.1 hmem
  have hij : i ≠ j := by
    rintro rfl
    rw [h] at hj
    exact hne (Option.some_inj.1 hj)
  exact List.mem_iff_getElem?.2 ⟨j, (List.getElem?_set_ne hij).trans hj⟩

/-- What the states of a pool and its users have in common, after `lost` connections have been
lost. -/
structure Sound (size lost : Nat) (l : Lending E) : Prop where
  size_eq : l.pool.state.maxSize = size
  losses_eq : l.losses = lost
  balanced : Balanced l.pool.state l.opened l.stakes
  ledger : ∃ events, Monitor.Ledger events l.pool

/-- No caller of the pool has lost anything. -/
theorem losses_ofStanding (standing : Pool.Call × Option Pool.Reply) :
    (Stake.ofStanding? standing).toList.countP Stake.isLoss = 0 := by
  obtain ⟨call, _ | reply⟩ := standing
  · cases call <;> rfl
  · cases reply <;> rfl

theorem Sound.losses_of_perm (h : Sound size lost l) {stakes : List Stake}
    (hp : stakes.Perm l.stakes) : stakes.countP Stake.isLoss = lost :=
  (hp.countP_eq _).trans h.losses_eq

namespace Sound

theorem call (h : Sound size lost l) {c : Pool.Call} (hc : Stake.ofStanding? (c, none) = none)
    (deadline : Deadline) : Sound size lost (l.call c deadline) := by
  have hp : (l.call c deadline).stakes.Perm l.stakes := by
    simpa [hc] using stakes_call l c deadline
  exact ⟨h.size_eq, h.losses_of_perm hp, h.balanced.perm hp.symm,
    h.ledger.imp fun _ hl => hl.arrive c deadline⟩

/-- The callers of the pool go on. -/
theorem pool (h : Sound size lost l) {label : Monitor.Machine.Label Pool.protocol}
    {pool : Monitor.Machine Pool.protocol} (harrive : ∀ c deadline, label ≠ .arrive c deadline)
    (hs : l.pool.step label = some pool) : Sound size lost { l with pool } := by
  obtain ⟨events, hl⟩ := h.ledger
  have hledger : ∃ events, Monitor.Ledger events pool := ⟨_, hl.step hs⟩
  obtain ⟨hstate, hsame⟩ | ⟨call, reply, before, behind, hbefore, hafter, heffect⟩ :=
    hl.effect_of_step harrive hs
  · have hstakes : ({ l with pool } : Lending E).stakes = l.stakes := by rw [stakes, hsame, stakes]
    refine ⟨hstate ▸ h.size_eq, h.losses_of_perm (.of_eq hstakes), ?_, hledger⟩
    rw [hstakes, hstate]
    exact h.balanced
  · -- one caller is told its reply, and its stake is another now
    have hstakes := h.balanced.perm (stakes_middle hbefore)
    have hthen := stakes_middle (l := { l with pool }) hafter
    have hlosses : ({ l with pool } : Lending E).losses = lost := by
      rw [← h.losses_eq, losses, hthen.countP_eq, losses, (stakes_middle hbefore).countP_eq]
      simp only [List.countP_append, losses_ofStanding]
    obtain ⟨signal, hdone⟩ | ⟨⟨on, hblocked⟩, hreply, hstate⟩ := heffect
    · exact ⟨(Pool.maxSize_attempt hdone).trans h.size_eq, hlosses,
        (hstakes.attempt hdone).perm hthen.symm, hledger⟩
    · refine ⟨hstate ▸ h.size_eq, hlosses, ?_, hledger⟩
      have hreply : reply = Pool.giveUp call := hreply
      rw [← Balanced.giveUp hblocked, ← hreply] at hstakes
      rw [hstate]
      exact hstakes.perm hthen.symm

/-- A user gets its reply, and what it has got then is what it has in hand. -/
theorem receive (h : Sound size lost l) {id : Nat} (hs : l.receive id = some l') :
    Sound size lost l' := by
  obtain ⟨events, hl⟩ := h.ledger
  simp only [Lending.receive, Option.bind_eq_bind, Option.bind_eq_some_iff] at hs
  obtain ⟨c, hc, reply, hr, hs⟩ := hs
  cases hs
  obtain ⟨before, behind, hb, ha, hstate, hledger⟩ := hl.take hc hr
  have hstake : (Stake.ofStanding? (c.call, some reply)).toList =
      (Hand.ofReply c.deadline reply).toList.map Stake.ofHand := by
    cases reply <;> rfl
  have hp : ({ l with pool := (l.pool.take id).2
                      hands := l.hands ++ (Hand.ofReply c.deadline reply).toList } :
      Lending E).stakes.Perm l.stakes := by
    refine .trans ?_ (stakes_middle hb).symm
    rw [stakes, ha, List.map_append, hstake]
    exact (List.Perm.of_eq (List.append_assoc ..).symm).trans List.perm_append_comm
  refine ⟨hstate ▸ h.size_eq, h.losses_of_perm hp, ?_, hledger⟩
  rw [hstate]
  exact h.balanced.perm hp.symm

/-- A user calls the pool with what it has in hand. -/
theorem handIn (h : Sound size lost l) {i : Nat} {hand : Hand} {c : Pool.Call} {s : E.State}
    (deadline : Deadline) (hi : l.hands[i]? = some hand)
    (hc : Stake.ofStanding? (c, none) = some (Stake.ofHand hand)) :
    Sound size lost ({ l.drop i with store := s }.call c deadline) :=
  have hp : ({ l.drop i with store := s }.call c deadline).stakes.Perm l.stakes :=
    stakes_handIn deadline hi hc
  ⟨h.size_eq, h.losses_of_perm hp, h.balanced.perm hp.symm,
    h.ledger.imp fun _ hl => hl.arrive c deadline⟩

theorem openUp (h : Sound size lost l) {i : Nat} (hs : l.openUp i = some l') :
    Sound size lost l' := by
  simp only [Lending.openUp] at hs
  split at hs
  · rename_i deadline hi
    split at hs
    · cases hs
      have hp : (l.hold i (.fresh l.opened deadline)).stakes.Perm _ := stakes_hold hi _
      have hstakes := stakes_drop hi
      refine ⟨h.size_eq, ?_, ((h.balanced.perm hstakes).connect).perm hp.symm, h.ledger⟩
      have hlosses : (Stake.place :: (l.drop i).stakes).countP Stake.isLoss = lost :=
        h.losses_of_perm hstakes.symm
      exact (hp.countP_eq _).trans hlosses
    · cases hs
      exact h.handIn .never hi rfl
  · cases hs

end Sound

/-- Whether a user breaks down at a step, because its requests would have to wait too long. -/
def breaksDown (l : Lending E) : Label E → Bool
  | .setUp i _ =>
    match l.hands[i]? with
    | some (.fresh _ deadline) | some (.reused _ deadline) =>
      maxWaitMs < waitMs l.pool.clock deadline
    | _ => false
  | _ => false

/-- What an attempt to set a connection up comes to: it fails, the user breaks down, or it may make
requests on the connection. -/
theorem setUp_cases {i : Nat} {succeeded : Bool} (hs : l.setUp i succeeded = some l') :
    ∃ hand c, l.hands[i]? = some hand ∧ Stake.ofHand hand = .connection c ∧
      (∀ c, hand ≠ .ready c ∧ hand ≠ .stuck c) ∧
      (l.breaksDown (.setUp i succeeded) = true ∧ l' = l.hold i (.lost c) ∨
        l.breaksDown (.setUp i succeeded) = false ∧
          ((∃ ms, l' = { l.hold i (.ready c) with store := E.setWait l.store c ms }) ∨
            l' = (l.drop i).call (.giveBack c) .never ∨ l' = l.hold i (.stuck c))) := by
  rcases hi : l.hands[i]? with _ | hand
  · simp only [Lending.setUp, hi] at hs
    cases hs
  cases hand with
  | fresh c deadline =>
    refine ⟨.fresh c deadline, c, rfl, rfl, fun _ => ⟨Hand.noConfusion, Hand.noConfusion⟩, ?_⟩
    simp only [Lending.setUp, hi, Option.some_inj] at hs
    simp only [breaksDown, hi, decide_eq_true_eq, decide_eq_false_iff_not]
    split at hs
    · exact .inl ⟨‹_›, hs.symm⟩
    · split at hs
      · exact .inr ⟨‹_›, .inl ⟨_, hs.symm⟩⟩
      · exact .inr ⟨‹_›, .inr (.inl hs.symm)⟩
  | reused c deadline =>
    refine ⟨.reused c deadline, c, rfl, rfl, fun _ => ⟨Hand.noConfusion, Hand.noConfusion⟩, ?_⟩
    simp only [Lending.setUp, hi, Option.some_inj] at hs
    simp only [breaksDown, hi, decide_eq_true_eq, decide_eq_false_iff_not]
    split at hs
    · exact .inl ⟨‹_›, hs.symm⟩
    · split at hs
      · exact .inr ⟨‹_›, .inl ⟨_, hs.symm⟩⟩
      · exact .inr ⟨‹_›, .inr (.inr hs.symm)⟩
  | place | ready | stuck | lost =>
    simp only [Lending.setUp, hi] at hs
    cases hs

namespace Sound

theorem setUp (h : Sound size lost l) {i : Nat} {succeeded : Bool}
    (hs : l.setUp i succeeded = some l') :
    Sound size (lost + (l.breaksDown (.setUp i succeeded)).toNat) l' := by
  obtain ⟨hand, c, hi, hhand, -, ⟨hbreaks, rfl⟩ | ⟨hbreaks, hl'⟩⟩ := setUp_cases hs
  · have hstakes := stakes_drop hi
    rw [hhand] at hstakes
    have hdrop : (Stake.connection c :: (l.drop i).stakes).countP Stake.isLoss = lost :=
      h.losses_of_perm hstakes.symm
    rw [List.countP_cons_of_neg (by nofun)] at hdrop
    have hp : (l.hold i (.lost c)).stakes.Perm (.loss c :: (l.drop i).stakes) := stakes_hold hi _
    rw [hbreaks]
    refine ⟨h.size_eq, ?_, ((h.balanced.perm hstakes).lose).perm hp.symm, h.ledger⟩
    rw [losses, hp.countP_eq, List.countP_cons_of_pos rfl, hdrop]
    rfl
  · -- the stake stays the same
    have hold {hand' : Hand} (hhand' : Stake.ofHand hand' = .connection c) {s : E.State} :
        Sound size lost { l.hold i hand' with store := s } :=
      have hp : (l.hold i hand').stakes.Perm l.stakes := by
        refine (stakes_hold hi hand').trans ?_
        rw [hhand', ← hhand]
        exact (stakes_drop hi).symm
      ⟨h.size_eq, h.losses_of_perm hp, h.balanced.perm hp.symm, h.ledger⟩
    rw [hbreaks]
    obtain ⟨ms, rfl⟩ | rfl | rfl := hl'
    · exact hold rfl
    · exact h.handIn .never hi (congrArg some hhand.symm)
    · exact hold rfl

theorem execute (h : Sound size lost l) {i : Nat} {request : Request E.Statement}
    (hs : l.execute i request = some l') : Sound size lost l' := by
  simp only [Lending.execute] at hs
  split at hs
  · cases hs
    exact ⟨h.size_eq, h.losses_eq, h.balanced, h.ledger⟩
  · cases hs

theorem finish (h : Sound size lost l) {i : Nat} (hs : l.finish i = some l') :
    Sound size lost l' := by
  simp only [Lending.finish] at hs
  split at hs
  · rename_i c hi
    cases hs
    exact h.handIn .never hi rfl
  · cases hs

end Sound

/-- The callers of a pool go on without its users. -/
theorem step_pool {label : Monitor.Machine.Label Pool.protocol}
    (hs : l.step (.pool label) = some l') : (∀ c deadline, label ≠ .arrive c deadline) ∧
      ∃ pool, l.pool.step label = some pool ∧ l' = { l with pool } := by
  cases label with
  | arrive => cases hs
  | enter id =>
    simp only [Lending.step, stepPool] at hs
    split at hs
    · cases hs
    · obtain ⟨pool, hp, rfl⟩ := Option.map_eq_some_iff.1 hs
      exact ⟨nofun, pool, hp, rfl⟩
  | signal | wake | pass | cancel =>
    simp only [Lending.step, stepPool, Option.map_eq_some_iff] at hs
    obtain ⟨pool, hp, rfl⟩ := hs
    exact ⟨nofun, pool, hp, rfl⟩

/-- **Every step keeps the balance.** -/
theorem Sound.step (h : Sound size lost l) {label : Label E} (hs : l.step label = some l') :
    Sound size (lost + (l.breaksDown label).toNat) l' := by
  cases label with
  | ask deadline =>
    cases hs
    exact h.call rfl deadline
  | pool label =>
    obtain ⟨harrive, pool, hp, rfl⟩ := step_pool hs
    exact h.pool harrive hp
  | receive id => exact h.receive hs
  | openUp i => exact h.openUp hs
  | setUp i succeeded => exact h.setUp hs
  | execute i request => exact h.execute hs
  | finish i => exact h.finish hs

/-! ### Connections inside of a transaction -/

/-- A connection inside of a transaction is one that somebody makes requests on. -/
def Tidy (l : Lending E) : Prop :=
  ∀ c < l.opened, E.inTransaction l.store c = true → .ready c ∈ l.hands

namespace Tidy

/-- A user calls the pool with what it has in hand.  If that is a connection, it is outside of any
transaction. -/
theorem handIn (h : l.Tidy) {i : Nat} {hand : Hand} {c : Pool.Call} {s : E.State}
    (deadline : Deadline) (hi : l.hands[i]? = some hand)
    (hin : ∀ c < l.opened, E.inTransaction s c = true →
      E.inTransaction l.store c = true ∧ hand ≠ .ready c) :
    ({ l.drop i with store := s }.call c deadline).Tidy := fun c hlt hc =>
  mem_drop_of_ne hi (hin c hlt hc).2 (h c hlt (hin c hlt hc).1)

theorem openUp (hE : E.Lawful) (h : l.Tidy) {i : Nat} (hs : l.openUp i = some l') : l'.Tidy := by
  simp only [Lending.openUp] at hs
  split at hs
  · rename_i deadline hi
    have hother {r : Except Fault Unit} {store : E.State}
        (hr : E.connect l.store l.opened = (r, store)) (c : Nat) (hlt : c < l.opened) :
        E.inTransaction store c = E.inTransaction l.store c := by
      have hother := hE.connect_other l.store l.opened c (Nat.ne_of_lt hlt)
      rwa [hr] at hother
    split at hs
    · rename_i store hr
      cases hs
      intro c hlt hin
      rcases Nat.lt_succ_iff_lt_or_eq.1 hlt with hlt | rfl
      · exact mem_hold_of_ne hi Hand.noConfusion (h c hlt (hother hr c hlt ▸ hin)) _
      · exact Bool.noConfusion (hin.symm.trans (hE.connect _ _ _ hr))
    · rename_i f store hr
      cases hs
      exact h.handIn .never hi fun c hlt hin => ⟨hother hr c hlt ▸ hin, Hand.noConfusion⟩
  · cases hs

theorem setUp (hE : E.Lawful) (h : l.Tidy) {i : Nat} {succeeded : Bool}
    (hs : l.setUp i succeeded = some l') : l'.Tidy := by
  obtain ⟨hand, c, hi, -, hready, ⟨-, rfl⟩ | ⟨-, ⟨ms, rfl⟩ | rfl | rfl⟩⟩ := setUp_cases hs
  · exact fun c' hlt hin => mem_hold_of_ne hi (hready c').1 (h c' hlt hin) _
  · intro c' hlt hin
    by_cases hcc : c' = c
    · rw [hcc]
      exact List.mem_set (List.getElem?_eq_some_iff.1 hi).1 _
    · have hin : E.inTransaction (E.setWait l.store c ms) c' = true := hin
      rw [hE.setWait_other _ _ _ _ hcc] at hin
      exact mem_hold_of_ne hi (hready c').1 (h c' hlt hin) _
  · exact h.handIn .never hi fun c' _ hin => ⟨hin, (hready c').1⟩
  · exact fun c' hlt hin => mem_hold_of_ne hi (hready c').1 (h c' hlt hin) _

theorem execute (hE : E.Lawful) (h : l.Tidy) {i : Nat} {request : Request E.Statement}
    (hs : l.execute i request = some l') : l'.Tidy := by
  simp only [Lending.execute] at hs
  split at hs
  · rename_i c hi
    cases hs
    intro c' hlt hin
    by_cases hcc : c' = c
    · rw [hcc]
      exact List.mem_of_getElem? hi
    · exact h c' hlt (hE.perform_other _ _ request _ hcc ▸ hin)
  · cases hs

theorem finish (hE : E.Lawful) (h : l.Tidy) {i : Nat} (hs : l.finish i = some l') : l'.Tidy := by
  simp only [Lending.finish] at hs
  split at hs
  · rename_i c hi
    cases hs
    refine h.handIn .never hi fun c' _ hin => ?_
    obtain ⟨hne, hin⟩ := hE.inside_of_rollback hin
    exact ⟨hin, fun he => hne (by cases he; rfl)⟩
  · cases hs

end Tidy

/-- **No step leaves a transaction behind**, however a user ends. -/
theorem Tidy.step (hE : E.Lawful) (h : l.Tidy) {label : Label E} (hs : l.step label = some l') :
    l'.Tidy := by
  cases label with
  | ask deadline =>
    cases hs
    exact h
  | pool label =>
    obtain ⟨-, pool, -, rfl⟩ := step_pool hs
    exact h
  | receive id =>
    simp only [Lending.step, Lending.receive, Option.bind_eq_bind, Option.bind_eq_some_iff] at hs
    obtain ⟨c, -, reply, -, hs⟩ := hs
    cases hs
    exact fun c hlt hin => List.mem_append_left _ (h c hlt hin)
  | openUp i => exact h.openUp hE hs
  | setUp i succeeded => exact h.setUp hE hs
  | execute i request => exact h.execute hE hs
  | finish i => exact h.finish hE hs

/-! ### Runs -/

/-- The state after some steps, if they can be taken. -/
def run (l : Lending E) (labels : List (Label E)) : Option (Lending E) := labels.foldlM step l

/-- How many users break down in the course of some steps. -/
def breakdowns (l : Lending E) : List (Label E) → Nat
  | [] => 0
  | label :: labels =>
    (l.breaksDown label).toNat + ((l.step label).map (·.breakdowns labels)).getD 0

theorem run_append {labels labels' : List (Label E)} {l'' : Lending E}
    (h : l.run labels = some l') (h' : l'.run labels' = some l'') :
    l.run (labels ++ labels') = some l'' := by
  rw [run] at h h'
  rw [run, List.foldlM_append, h]
  exact h'

/-- What every step keeps, a run does. -/
theorem invariant_of_run {P : Lending E → Prop}
    (hstep : ∀ l l' label, P l → l.step label = some l' → P l') (h : P l) {labels : List (Label E)}
    (hr : l.run labels = some l') : P l' := by
  induction labels generalizing l with
  | nil =>
    cases hr
    exact h
  | cons label labels ih =>
    obtain ⟨l₁, hs, hr⟩ := Option.bind_eq_some_iff.1 hr
    exact ih (hstep l l₁ label h hs) hr

theorem Tidy.run (hE : E.Lawful) (h : l.Tidy) {labels : List (Label E)}
    (hr : l.run labels = some l') : l'.Tidy :=
  invariant_of_run (fun _ _ _ h hs => h.step hE hs) h hr

/-- Every run keeps the balance. -/
theorem Sound.run (h : Sound size lost l) {labels : List (Label E)} (hr : l.run labels = some l') :
    Sound size (lost + l.breakdowns labels) l' := by
  induction labels generalizing l lost with
  | nil =>
    cases hr
    exact h
  | cons label labels ih =>
    obtain ⟨l₁, hs, hr⟩ := Option.bind_eq_some_iff.1 hr
    have ih := ih (h.step hs) hr
    rwa [Nat.add_assoc, show (l.breaksDown label).toNat + l₁.breakdowns labels =
      l.breakdowns (label :: labels) by rw [breakdowns, hs]; rfl] at ih

theorem sound_new (store : E.State) (target : Target) (maxSize : Nat) :
    Sound (Pool.ofTarget target maxSize).maxSize 0 (new store target maxSize) := by
  refine ⟨rfl, rfl, ?_, [], .nil, nofun, .nil⟩
  cases target <;> exact ⟨rfl, Nat.zero_le _, .nil⟩

theorem tidy_new (store : E.State) (target : Target) (maxSize : Nat) :
    (new store target maxSize).Tidy := nofun

end Lending

/-- **A pool and its users are in balance after every run**, whatever engine keeps the tables.  The
places that the pool counts are those of its free connections, of the ones that are checked out, of
the ones that are being opened, and one for each user that broke down because it asked for a
connection with a deadline too far away; there are never more of them than the pool may have; no
connection is at two places; and a free connection is outside of any transaction, whatever was run
on it and however its user has ended.  A pool to a database in memory opens no second connection. -/
theorem balance_of_run {E : Engine} (hE : E.Lawful) {store : E.State} {target : Target}
    {maxSize : Nat} {labels : List (Lending.Label E)} {l : Lending E}
    (run : (Lending.new store target maxSize).run labels = some l) :
    l.pool.state.created =
        l.pool.state.idle.length + l.connections.length + l.openings +
          (Lending.new store target maxSize).breakdowns labels ∧
      l.pool.state.created ≤ (Pool.ofTarget target maxSize).maxSize ∧
      (l.pool.state.idle ++ l.connections).Nodup ∧
      (∀ c ∈ l.pool.state.idle, E.inTransaction l.store c = false) ∧
      (target = .memory → l.opened ≤ 1) := by
  have h := (Lending.sound_new store target maxSize).run run
  have htidy := (Lending.tidy_new store target maxSize).run hE run
  have hlost := h.losses_eq
  have hplaces := h.balanced.places
  have hbounded : l.pool.state.created ≤ (Pool.ofTarget target maxSize).maxSize :=
    h.size_eq ▸ h.balanced.bounded
  have hall : (l.pool.state.idle ++ numbersOf l.stakes).Nodup :=
    h.balanced.apart.nodup_iff.2 List.nodup_range
  have hstakes := length_stakes l.stakes
  rw [Nat.zero_add] at hlost
  refine ⟨?_, hbounded, ?_, fun c hc => ?_, ?_⟩
  · -- the stakes are connections, places and losses, and the losses are the breakdowns
    rw [hplaces, hstakes, ← hlost, Lending.connections, Lending.openings, Lending.losses]
    omega
  · exact (List.Sublist.append_left (connections_sublist l.stakes) _).nodup hall
  · -- it would be one that somebody has
    by_contra hin
    have hlt : c < l.opened :=
      List.mem_range.1 (h.balanced.apart.mem_iff.1 (List.mem_append_left _ hc))
    have hready := htidy c hlt (by simpa using hin)
    have hout : c ∈ numbersOf l.stakes := List.mem_filterMap.2
      ⟨.connection c, List.mem_append_right _ (List.mem_map_of_mem hready), rfl⟩
    exact (List.nodup_append.1 hall).2.2 c hc c hout rfl
  · rintro rfl
    have hlen := h.balanced.apart.length_eq
    have hone : (Pool.ofTarget .memory maxSize).maxSize ≤ 1 := Nat.min_le_right ..
    have hnumbers : (numbersOf l.stakes).length ≤ l.stakes.length := List.length_filterMap_le ..
    rw [List.length_append, List.length_range] at hlen
    omega

/-- A user breaks down inside of a transaction while another one waits for the connection. -/
theorem balance_of_run_inside : Store.engine.Lawful ∧
    ∃ labels l, (Lending.new (E := Store.engine) {} .memory 4).run labels = some l ∧
      l.opened = 1 ∧ l.pool.state.idle = [0] ∧ (l.store.session 0).inTransaction = false := by
  have run : (Lending.new (E := Store.engine) {} .memory 4).run
      [.ask .never, .pool (.enter 0), .receive 0, .openUp 0, .setUp 0 true,
        .execute 0 (.begin .immediate), .ask .never, .pool (.enter 1), .finish 0,
        .pool (.enter 2)] = some _ := rfl
  exact ⟨Store.lawful, _, _, run, rfl, rfl, (balance_of_run Store.lawful run).2.2.2.1 0 (.head _)⟩

/-- A user that asks for a connection with a deadline a month away breaks down and takes the only
place with it: nobody has a connection, none is being opened, and yet there is none to be had. -/
theorem balance_breaks_of_long_deadline :
    ∃ labels l, (Lending.new (E := Store.engine) {} .memory 4).run labels = some l ∧
      l.pool.state.created = 1 ∧ l.pool.state.maxSize = 1 ∧
      l.pool.state.idle = [] ∧ l.connections = [] ∧ l.openings = 0 :=
  ⟨[.ask (.after {} 3000000000), .pool (.enter 0), .receive 0, .openUp 0, .setUp 0 true], _, rfl,
    rfl, rfl, rfl, rfl, rfl⟩

/-! ## A user that is alone -/

namespace Lending

/-- A database of which one user has something in hand. -/
def lone {E : Engine} (db : Database E) (nextId : Nat) (hands : List Hand) : Lending E where
  pool := { state := db.pool, nextId, clock := db.clock }
  store := db.store
  opened := db.opened
  hands := hands

variable {E : Engine} {db db' : Database E} {deadline : Deadline}

/-- A call of one user that is alone does what its attempt does. -/
theorem run_call (db : Database E) (call : Pool.Call) (deadline : Deadline) {pool : Pool}
    {reply : Pool.Reply} {signal : Monitor.Signal Unit}
    (ha : Pool.attempt call db.pool = .done pool reply signal) (n : Nat) :
    ∃ labels, ((lone db n []).call call deadline).run labels =
      some (lone { db with pool } (n + 1) (Hand.ofReply deadline reply).toList) := by
  cases signal with
  | nobody =>
    refine ⟨[.pool (.enter n), .receive n], ?_⟩
    simp [run, step, stepPool, isGuarded, Lending.call, lone, Monitor.Machine.step,
      Monitor.Machine.find?, Monitor.Machine.enter, Monitor.Machine.setPhase, Lending.receive,
      Monitor.Machine.reply?, Monitor.Machine.take, ha]
  | one on =>
    refine ⟨[.pool (.enter n), .pool (.signal n none), .receive n], ?_⟩
    simp [run, step, stepPool, isGuarded, Lending.call, lone, Monitor.Machine.step,
      Monitor.Machine.find?, Monitor.Machine.enter, Monitor.Machine.setPhase, Lending.receive,
      Monitor.Machine.reply?, Monitor.Machine.take, Monitor.Machine.waitsOn, ha]
  | all on =>
    refine ⟨[.pool (.enter n), .pool (.signal n none), .receive n], ?_⟩
    simp [run, step, stepPool, isGuarded, Lending.call, lone, Monitor.Machine.step,
      Monitor.Machine.find?, Monitor.Machine.enter, Monitor.Machine.setPhase, Lending.receive,
      Monitor.Machine.reply?, Monitor.Machine.take, Monitor.Machine.wakeAll,
      Monitor.Machine.waitsOn, ha]

/-- What a user has in hand when it has been lent a connection, or has broken down over it. -/
def handOf (c : Nat) : Ending Nat → Hand
  | .returned _ => .ready c
  | .panicked => .lost c

/-- Setting a connection up is `Database.lend`, whichever way the connection has been got. -/
theorem run_setUp (db : Database E) (deadline : Deadline) (c n : Nat) {hand : Hand}
    (hhand : hand = .fresh c deadline ∨ hand = .reused c deadline) :
    (lone db n [hand]).run [.setUp 0 true] =
      some (lone (db.lend c deadline).2 n [handOf c (db.lend c deadline).1]) := by
  by_cases hlong : maxWaitMs < waitMs db.clock deadline
  · obtain rfl | rfl := hhand <;> simp [run, step, setUp, lone, lend, hlong, handOf, hold]
  · obtain rfl | rfl := hhand <;> simp [run, step, setUp, lone, lend, hlong, handOf, hold]

/-- **Taking a connection** is a run of the user that takes it, also if it breaks down over it. -/
theorem run_checkout {ending : Ending Nat} (h : db.checkout deadline = (ending, db'))
    (hgot : ∀ e, ending ≠ .returned (.error e)) (n : Nat) :
    ∃ c labels n', (lone db n []).run labels = some (lone db' n' [handOf c ending]) := by
  cases ha : Pool.attempt .reserve db.pool with
  | blocked on =>
    rw [checkout, callPool, ha] at h
    cases h
    exact absurd rfl (hgot _)
  | done pool reply signal =>
    obtain ⟨labels, hl⟩ := run_call db .reserve deadline ha n
    rw [checkout, callPool, ha] at h
    cases reply with
    | refused | done =>
      cases h
      exact absurd rfl (hgot _)
    | connection c =>
      have hset := run_setUp { db with pool } deadline c (n + 1) (.inr rfl)
      have h : Database.lend { db with pool } c deadline = (ending, db') := h
      rw [h] at hset
      exact ⟨c, [.ask deadline] ++ (labels ++ [Label.setUp 0 true]), _,
        run_append rfl (run_append hl hset)⟩
    | place =>
      rcases hc : E.connect db.store db.opened with ⟨f | u, store⟩
      · simp only [hc] at h
        cases h
        exact absurd rfl (hgot _)
      · simp only [hc] at h
        let db₁ : Database E := { db with pool, store, opened := db.opened + 1 }
        have hopen : (lone { db with pool } (n + 1) [.place deadline]).run [.openUp 0] =
            some (lone db₁ (n + 1) [.fresh db.opened deadline]) := by
          simp [run, step, openUp, lone, hc, hold, db₁]
        have hset := run_setUp db₁ deadline db.opened (n + 1) (.inl rfl)
        rw [h] at hset
        exact ⟨db.opened,
          [.ask deadline] ++ (labels ++ ([Label.openUp 0] ++ [Label.setUp 0 true])), _,
          run_append rfl (run_append hl (run_append hopen hset))⟩

/-- **Giving a connection back** is a run of the user that has it. -/
theorem run_release (db : Database E) (c n : Nat) :
    ∃ labels n', (lone db n [.ready c]).run labels = some (lone (db.release c) n' []) := by
  let store := if E.inTransaction db.store c then (E.perform db.store c .rollback).2 else db.store
  obtain ⟨labels, hl⟩ := run_call { db with store } (.giveBack c) .never rfl n
  exact ⟨[.finish 0] ++ labels, _, run_append rfl hl⟩

end Lending

end ScriptHost.Database
