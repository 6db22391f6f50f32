import StatusRegistry.Cache.Error

/-!
# The cache in memory

A bounded map with expiry. Its entries stand in the order of their last use, the latest first, so
the entry that makes room for another is the last one. An entry whose time has come is dead: it is
never given out, and writing removes every dead entry before it makes room.

The table for all entries is reserved when the cache is made. How long a table may be is up to the
process; a cache whose table cannot be had is not made.

Times are nanoseconds of a clock that never runs back, and end where its seconds no longer fit in
63 bits.
-/

namespace StatusRegistry

/-- A value under a key until a time. -/
structure CacheEntry where
  key : String
  value : String
  expiresAt : Nat
  deriving DecidableEq, Repr

/-- A bounded map with expiry, its entries latest used first. -/
structure MemoryCache where
  capacity : Nat
  entries : List CacheEntry
  deriving DecidableEq, Repr

namespace MemoryCache

/-- The nanoseconds of a second. -/
def second : Nat := 1000000000

/-- The last second of the clock. -/
def lastSecond : Nat := 0x7FFFFFFFFFFFFFFF

/-- The longest allocation, in octets. -/
def longestAllocation : Nat := 0x7FFFFFFFFFFFFFFF

/-- For how many entries a process can reserve a table. An entry takes at least an octet. -/
structure Room where
  fits : Nat → Bool
  bounded : ∀ entries, fits entries = true → entries ≤ longestAllocation

/-- Room for every table that could be allocated at all. -/
def Room.unlimited : Room where
  fits entries := decide (entries ≤ longestAllocation)
  bounded _ := of_decide_eq_true

/-- An empty cache with its table reserved; it holds at least one entry. -/
def withCapacity (capacity : Nat) : MemoryCache := ⟨max capacity 1, []⟩

/-- Reserves a table and makes an empty cache. Without room the process comes to its end, in a panic
or because it is out of memory. -/
def make? (room : Room) (capacity : Nat) : Option MemoryCache :=
  let made := withCapacity capacity
  if room.fits made.capacity then some made else none

/-- The number of entries, dead ones included. -/
def size (c : MemoryCache) : Nat := c.entries.length

/-- The entry under a key. -/
def find? (c : MemoryCache) (key : String) : Option CacheEntry :=
  c.entries.find? (·.key = key)

/-- The entries of all other keys. -/
def without (c : MemoryCache) (key : String) : List CacheEntry :=
  c.entries.filter (·.key ≠ key)

/-- Whether an entry may still be given out. -/
def CacheEntry.isLive (now : Nat) (e : CacheEntry) : Bool := now < e.expiresAt

/-- The value under a key, and the cache after its use: a live entry becomes the latest used one, a
dead one goes. -/
def get (c : MemoryCache) (now : Nat) (key : String) : Option String × MemoryCache :=
  match c.find? key with
  | none => (none, c)
  | some e =>
    if CacheEntry.isLive now e then (some e.value, { c with entries := e :: c.without key })
    else (none, { c with entries := c.without key })

/-- The time at which an entry made now dies, if the clock reaches it. -/
def expiry? (now lifetime : Nat) : Option Nat :=
  let time := now + second * lifetime
  if time / second ≤ lastSecond then some time else none

/-- The cache after a write: dead entries go first, then the last used one if there is no room. -/
def put (c : MemoryCache) (now : Nat) (entry : CacheEntry) : MemoryCache :=
  let live := c.entries.filter (CacheEntry.isLive now)
  let others := live.filter (·.key ≠ entry.key)
  { c with entries := entry :: others.take (c.capacity - 1) }

/-- Writes a value for a number of seconds. -/
def set (c : MemoryCache) (now : Nat) (key value : String) (lifetime : Nat) :
    Except CacheError Unit × MemoryCache :=
  match expiry? now lifetime with
  | none =>
    (.error (.backend "memory.set" ("ttl of " ++ toString lifetime ++ "s is out of range")), c)
  | some time => (.ok (), c.put now ⟨key, value, time⟩)

/-- Removes the value under a key, if there is one. -/
def delete (c : MemoryCache) (key : String) : MemoryCache :=
  { c with entries := c.without key }

end MemoryCache

end StatusRegistry
