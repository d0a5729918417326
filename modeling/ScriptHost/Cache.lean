import ScriptHost.Deadline
import ScriptHost.Failure
/-!
# Caches with expiry

An entry is live until its expiry, if it has one.  Whether an entry is live is decided whenever it
is used, so an entry that has expired is never seen; a sweep only gives its memory back.  A sweeper
does so at regular intervals in the background.
-/

set_option autoImplicit false

namespace ScriptHost

/-- A value, and when it ceases to count; without an instant it counts for ever. -/
structure Cache.Entry (α : Type) where
  value : α
  expiresAt : Option Nat

/-- The entries, of which one that has expired stays until it is looked at or swept. -/
structure Cache (α : Type) where
  entries : List (String × Cache.Entry α) := []
  /-- The interval of the background sweeper, if one runs, and when it sweeps next. -/
  sweeper : Option (Nat × Nat) := none

namespace Cache

variable {α : Type}

/-- Whether the entry still counts. -/
def Entry.isLive (now : Nat) (e : Entry α) : Bool :=
  match e.expiresAt with
  | some instant => now < instant
  | none => true

/-- When an entry expires; a time to live of zero is none. -/
def expiry (c : Clock) : Option Nat → Option Nat
  | none => none
  | some 0 => none
  | some ttl => (Deadline.after c ttl).at?

/-- A time to live in milliseconds; one that is not positive is none. -/
def ttlOfMs (ms : Int) : Option Nat := if 0 < ms then some ms.toNat else none

/-- What can be asked of a cache.  Lifetimes are in milliseconds; without one an entry never
expires. -/
inductive Call (α : Type) where
  | set (key : String) (value : α) (ttl : Option Nat)
  | get (key : String)
  | has (key : String)
  | expire (key : String) (ttl : Option Nat)
  | remove (key : String)
  | size
  | sweep

/-- What is answered. -/
inductive Reply (α : Type) where
  | stored
  | value (v : Option α)
  | flag (b : Bool)
  | count (n : Nat)

/-- The cache without a key. -/
def erase (cache : Cache α) (key : String) : Cache α :=
  { cache with entries := cache.entries.filter (·.1 ≠ key) }

/-- The cache with an entry for a key, in place of any other. -/
def put (cache : Cache α) (key : String) (e : Entry α) : Cache α :=
  { cache with entries := (key, e) :: (cache.erase key).entries }

/-- The entries that still count. -/
def live (now : Nat) (cache : Cache α) : List (String × Entry α) :=
  cache.entries.filter (·.2.isLive now)

/-- The entry of a key, if it is live, and the cache without it, if it is not. -/
def look (now : Nat) (cache : Cache α) (key : String) : Option (Entry α) × Cache α :=
  match cache.entries.lookup key with
  | none => (none, cache)
  | some e => if e.isLive now then (some e, cache) else (none, cache.erase key)

/-- What a call answers and leaves behind. -/
def call (c : Clock) (cache : Cache α) : Call α → Reply α × Cache α
  | .set key value ttl => (.stored, cache.put key ⟨value, expiry c ttl⟩)
  | .get key => let (e, cache) := cache.look c.now key; (.value (e.map (·.value)), cache)
  | .has key => let (e, cache) := cache.look c.now key; (.flag e.isSome, cache)
  | .expire key ttl =>
    match cache.look c.now key with
    | (some e, cache) => (.flag true, cache.put key { e with expiresAt := expiry c ttl })
    | (none, cache) => (.flag false, cache)
  | .remove key => (.value ((cache.look c.now key).1.map (·.value)), cache.erase key)
  | .size => (.count (cache.live c.now).length, cache)
  | .sweep =>
    (.count (cache.entries.length - (cache.live c.now).length),
      { cache with entries := cache.live c.now })

/-! ## Sweeping in the background -/

/-- Sweeps in the background from now on, at intervals; the sweeper that there was stops. -/
def startSweeper (c : Clock) (cache : Cache α) (interval : Nat) : Outcome (Cache α) :=
  if interval = 0 then .error (.illegalState "sweep interval must be positive")
  else .ok { cache with sweeper := some (interval, c.now + interval) }

/-- The cache without its sweeper. -/
def stopSweeper (cache : Cache α) : Cache α := { cache with sweeper := none }

/-- The sweeps that have become due. -/
def catchUp (c : Clock) (cache : Cache α) : Cache α :=
  match cache.sweeper with
  | none => cache
  | some (interval, due) =>
    if due ≤ c.now then
      let last := due + (c.now - due) / interval * interval
      { entries := cache.live last, sweeper := some (interval, last + interval) }
    else cache

end Cache

end ScriptHost
