import StatusRegistry.Proofs.Cache.Recency

/-!
# The upkeep of the cache in memory

Whatever calls it has had, the cache in memory has one entry for each key and no more entries than
it may have. A write sweeps: of the entries that it leaves only its own can be dead. A call that has
nothing to do leaves the cache exactly as it is, in the order of last uses too: a write whose time
cannot be told, and a read or a removal of a key that has no entry. A read that meets a dead entry
takes away that entry and nothing else.
-/

namespace StatusRegistry.MemoryCache

variable {capacity : Nat} {past : List Moment} {c : MemoryCache} {now lifetime : Nat}
  {key value : String} {e : CacheEntry}

/-- A lifetime that begins now ends after the last second of the clock. -/
def Overruns (now lifetime : Nat) : Prop := (lastSecond + 1) * second ≤ now + second * lifetime

/-- No entry has a key. -/
def Lacks (c : MemoryCache) (key : String) : Prop := ∀ e ∈ c.entries, e.key ≠ key

/-- An entry has a key of its own, and there are no more entries than a cache of a requested
capacity may have. Dead entries count. -/
structure IsWellKept (capacity : Nat) (c : MemoryCache) : Prop where
  unique : (c.entries.map CacheEntry.key).Nodup
  bounded : c.size ≤ max 1 capacity

/-- What calls at a time do to a cache. -/
structure IsTidyAt (now : Nat) (c : MemoryCache) : Prop where
  /-- A write whose time cannot be told fails and changes nothing. -/
  overruns : ∀ key value lifetime, Overruns now lifetime →
    (Cache.memory c).set now key value lifetime =
      (.error (.backend "memory.set" ("ttl of " ++ toString lifetime ++ "s is out of range")), [],
        .memory c)
  /-- Every other write succeeds and leaves its own entry, and beside it only live ones. -/
  sweeps : ∀ key value lifetime, ¬Overruns now lifetime → ∃ after : MemoryCache,
    (Cache.memory c).set now key value lifetime = (.ok (), [], .memory after) ∧
      ⟨key, value, now + second * lifetime⟩ ∈ after.entries ∧
      ∀ e ∈ after.entries, e ≠ ⟨key, value, now + second * lifetime⟩ → now < e.expiresAt
  /-- A removal of a key that has no entry changes nothing. -/
  removesNothing : ∀ key, c.Lacks key → (Cache.memory c).delete key = (.ok (), [], .memory c)
  /-- A read of a key that has no entry misses and changes nothing. -/
  misses : ∀ key, c.Lacks key → (Cache.memory c).get now key = (.error (.miss key), [], .memory c)
  /-- A read that meets a dead entry misses and takes away that entry only. -/
  buries : ∀ e ∈ c.entries, e.expiresAt ≤ now →
    (Cache.memory c).get now e.key =
      (.error (.miss e.key), [], .memory { c with entries := c.entries.erase e })

/-- The time at which an entry dies can be told unless its lifetime overruns the clock. -/
theorem expiry?_eq_none_iff : expiry? now lifetime = none ↔ Overruns now lifetime := by
  have last : (now + second * lifetime) / second ≤ lastSecond ↔ ¬Overruns now lifetime := by
    rw [Overruns, Nat.not_le, ← Nat.lt_succ_iff]
    exact Nat.div_lt_iff_lt_mul (by decide)
  rw [← not_iff_not, ← last]
  unfold expiry?
  dsimp only
  split
  · exact ⟨fun _ => ‹_›, fun _ => nofun⟩
  · exact ⟨fun told => absurd rfl told, fun ends => absurd ends ‹_›⟩

/-- A write whose time cannot be told fails and changes nothing. -/
theorem set_of_overruns (overruns : Overruns now lifetime) (c : MemoryCache)
    (key value : String) :
    c.set now key value lifetime =
      (.error (.backend "memory.set" ("ttl of " ++ toString lifetime ++ "s is out of range")),
        c) := by
  rw [set, expiry?_eq_none_iff.mpr overruns]

/-- A write whose time can be told puts its entry into the cache. -/
theorem set_of_not_overruns (fits : ¬Overruns now lifetime) (c : MemoryCache)
    (key value : String) :
    c.set now key value lifetime =
      (.ok (), c.put now ⟨key, value, now + second * lifetime⟩) := by
  cases told : expiry? now lifetime with
  | none => exact absurd (expiry?_eq_none_iff.mp told) fits
  | some time =>
    rw [set, told, expiry_eq told]

/-- An entry that is put into a cache is there, and beside it are only live ones. -/
theorem live_of_mem_put {entry : CacheEntry} (member : e ∈ (c.put now entry).entries)
    (other : e ≠ entry) : now < e.expiresAt := by
  rcases List.mem_cons.mp member with same | kept
  · exact absurd same other
  · have live := (List.mem_filter.mp (List.mem_of_mem_take kept)).1
    exact of_decide_eq_true (List.mem_filter.mp live).2

/-- A key that has no entry is not found. -/
theorem Lacks.find? (lacks : c.Lacks key) : c.find? key = none :=
  List.find?_eq_none.mpr fun e member same => lacks e member (of_decide_eq_true same)

/-- All entries are those of other keys than one that has none. -/
theorem Lacks.without (lacks : c.Lacks key) : c.without key = c.entries :=
  List.filter_eq_self.mpr fun e member => decide_eq_true (lacks e member)

/-- Where keys are distinct, the entries of all other keys are the other entries. -/
theorem without_eq_erase (distinct : (c.entries.map CacheEntry.key).Nodup)
    (member : e ∈ c.entries) : c.without e.key = c.entries.erase e := by
  rw [distinct.of_map.erase_eq_filter, MemoryCache.without]
  refine List.filter_congr fun o there => ?_
  rw [Bool.eq_iff_iff, decide_eq_true_iff, bne_iff_ne]
  exact ⟨fun apart same => apart (congrArg CacheEntry.key same),
    fun other same => other (eq_of_key distinct there member same)⟩

/-- Where keys are distinct, a read that meets a dead entry takes away that entry only. -/
theorem get_of_dead (distinct : (c.entries.map CacheEntry.key).Nodup) (member : e ∈ c.entries)
    (dead : e.expiresAt ≤ now) :
    c.get now e.key = (none, { c with entries := c.entries.erase e }) := by
  have passed : CacheEntry.isLive now e = false := decide_eq_false (Nat.not_lt.mpr dead)
  rw [get, find?_of_mem distinct member]
  simp only [passed, Bool.false_eq_true, if_false, without_eq_erase distinct member]

/-- A cache is well kept after every course of calls. -/
theorem Lives.isWellKept (lives : Lives capacity past c) : IsWellKept capacity c where
  unique := lives.isCurrent.distinct
  bounded := by
    rw [Nat.max_comm, ← lives.isCurrent.bounded]
    exact lives.isCurrent.room

/-- A well-kept cache is tidy at any time. -/
theorem IsWellKept.isTidyAt (kept : IsWellKept capacity c) (now : Nat) : IsTidyAt now c where
  overruns key value lifetime overruns := by
    rw [Cache.set, set_of_overruns overruns]
  sweeps key value lifetime fits := by
    refine ⟨c.put now ⟨key, value, now + second * lifetime⟩, ?_, List.mem_cons_self,
      fun _ member other => live_of_mem_put member other⟩
    rw [Cache.set, set_of_not_overruns fits]
  removesNothing key lacks := by
    rw [Cache.delete, MemoryCache.delete, lacks.without]
  misses key lacks := by
    rw [Cache.get, MemoryCache.get, lacks.find?]
  buries e member dead := by
    rw [Cache.get, get_of_dead kept.unique member dead]

/-- In every course of calls the cache is well kept and tidy: after it, and before each of its
calls at the time of the call. -/
theorem upkeep_is_orderly (lives : Lives capacity past c) :
    (IsWellKept capacity c ∧ ∀ now, IsTidyAt now c) ∧
    ∀ m ∈ past, IsWellKept capacity m.cache ∧ IsTidyAt m.time m.cache := by
  refine ⟨⟨lives.isWellKept, lives.isWellKept.isTidyAt⟩, fun m member => ?_⟩
  obtain ⟨later, earlier, rfl⟩ := List.append_of_mem member
  obtain ⟨before, -⟩ := lives.before
  exact ⟨before.isWellKept, before.isWellKept.isTidyAt m.time⟩

namespace SmallCache

/-- A value that is dead at once is written to a cache that was requested without any room. -/
def fleeting : Moment := ⟨0, .set "a" "1" 0, .withCapacity 0⟩

/-- This is a course of calls. -/
theorem lives_fleeting : Lives 0 [fleeting] fleeting.after := .next .start _ _ nofun

/-- The longest lifetime overruns the clock. -/
theorem overruns_longest : Overruns second 0xFFFFFFFFFFFFFFFF := by
  unfold Overruns second lastSecond
  omega

end SmallCache

open SmallCache in
/-- A cache that was requested without any room holds one dead entry after a write without a
lifetime. A write with the longest lifetime leaves it there, and a read takes it away. -/
theorem dead_entry_is_buried :
    Lives 0 [fleeting] fleeting.after ∧ fleeting.after.entries = [⟨"a", "1", 0⟩] ∧
    fleeting.after.size ≤ max 1 0 ∧
    (Cache.memory fleeting.after).set second "a" "2" 0xFFFFFFFFFFFFFFFF =
      (.error (.backend "memory.set" ("ttl of " ++ toString 0xFFFFFFFFFFFFFFFF ++
        "s is out of range")), [], .memory fleeting.after) ∧
    (Cache.memory fleeting.after).get second "a" = (.error (.miss "a"), [], .memory ⟨1, []⟩) := by
  obtain ⟨⟨kept, tidy⟩, -⟩ := upkeep_is_orderly lives_fleeting
  exact ⟨lives_fleeting, rfl, kept.bounded, (tidy second).overruns "a" "2" _ overruns_longest,
    (tidy second).buries ⟨"a", "1", 0⟩ List.mem_cons_self (Nat.zero_le _)⟩

end StatusRegistry.MemoryCache
