import Mathlib.Data.List.Nodup
import StatusRegistry.Proofs.Cache

/-!
# Calls of the cache in memory

A call settles a key if it writes or removes it, uses a key if it writes it or reads it
successfully, and evicts a key if it takes away a live entry without settling its key. What becomes
of the entries is one of five things, from which all else follows: keys stay distinct, there are
never more than the capacity allows, and exactly the entries for which a write has no room are
evicted.
-/

namespace StatusRegistry.MemoryCache

/-- A call of the cache in memory. -/
inductive Request where
  | get (key : String)
  | set (key value : String) (lifetime : Nat)
  | delete (key : String)

/-- The cache after a call. -/
def after (c : MemoryCache) (now : Nat) : Request → MemoryCache
  | .get key => (c.get now key).2
  | .set key value lifetime => (c.set now key value lifetime).2
  | .delete key => c.delete key

/-- The entries that are alive at a time. -/
def live (c : MemoryCache) (now : Nat) : List CacheEntry :=
  c.entries.filter (CacheEntry.isLive now)

/-- The keys that have live entries. -/
def liveKeys (c : MemoryCache) (now : Nat) : List String := (c.live now).map CacheEntry.key

/-- A call at a time, with the cache that it finds. -/
structure Moment where
  time : Nat
  request : Request
  cache : MemoryCache

namespace Moment

/-- The cache that a call leaves. -/
def after (m : Moment) : MemoryCache := m.cache.after m.time m.request

/-- A call writes a value under a key until a time. -/
def Writes (m : Moment) (key value : String) (limit : Nat) : Prop :=
  ∃ lifetime, m.request = .set key value lifetime ∧
    (m.cache.set m.time key value lifetime).1 = .ok () ∧
    limit = m.time + second * lifetime

/-- A call settles what is under a key: it writes or removes it. -/
def Settles (m : Moment) (key : String) : Prop :=
  (∃ value limit, m.Writes key value limit) ∨ m.request = .delete key

/-- A call uses a key: it writes it or gives out its value. -/
def Uses (m : Moment) (key : String) : Prop :=
  (∃ value limit, m.Writes key value limit) ∨
    m.request = .get key ∧ ∃ value, (m.cache.get m.time key).1 = some value

/-- A call evicts a key: it takes away a live entry that it was not asked to settle. -/
def Evicts (m : Moment) (key : String) : Prop :=
  key ∈ m.cache.liveKeys m.time ∧ key ∉ m.after.liveKeys m.time ∧ ¬m.Settles key

end Moment

/-- The entry under a key has that key. -/
theorem key_of_find? {c : MemoryCache} {key : String} {e : CacheEntry}
    (found : c.find? key = some e) : e.key = key := by
  have same := List.find?_some found
  exact of_decide_eq_true same

/-- Where keys are distinct, entries of one key are the same. -/
theorem eq_of_key {entries : List CacheEntry} {e o : CacheEntry}
    (distinct : (entries.map CacheEntry.key).Nodup) (member : e ∈ entries) (there : o ∈ entries)
    (same : e.key = o.key) : e = o :=
  List.inj_on_of_nodup_map distinct member there same

/-- Where keys are distinct, every entry is the one under its key. -/
theorem find?_of_mem {c : MemoryCache} {e : CacheEntry}
    (distinct : (c.entries.map CacheEntry.key).Nodup) (member : e ∈ c.entries) :
    c.find? e.key = some e := by
  cases found : c.find? e.key with
  | none =>
    have absent := List.find?_eq_none.mp found e member
    exact absurd (decide_eq_true rfl) absent
  | some o =>
    rw [eq_of_key distinct (List.mem_of_find?_eq_some found) member (key_of_find? found)]

namespace Moment

variable {m : Moment} {key other value : String} {limit : Nat} {e : CacheEntry}

/-- A write succeeds if its time can be told. -/
theorem set_ok_iff {c : MemoryCache} {now lifetime : Nat} :
    (c.set now key value lifetime).1 = .ok () ↔
      expiry? now lifetime = some (now + second * lifetime) := by
  unfold MemoryCache.set
  cases fits : expiry? now lifetime with
  | none => exact ⟨nofun, nofun⟩
  | some time => exact ⟨fun _ => congrArg some (expiry_eq fits), fun _ => rfl⟩

/-- The live entries of other keys. -/
def others (m : Moment) (key : String) : List CacheEntry :=
  (m.cache.live m.time).filter (·.key ≠ key)

/-- What becomes of the entries in a call. -/
inductive Effect (m : Moment) : List CacheEntry → Prop where
  | nothing (unused : ∀ key, ¬m.Uses key) (unsettled : ∀ key, ¬m.Settles key) :
      Effect m m.cache.entries
  | hit {e : CacheEntry} (found : m.cache.find? e.key = some e)
      (used : ∀ key, m.Uses key ↔ key = e.key) (unsettled : ∀ key, ¬m.Settles key) :
      Effect m (e :: m.cache.without e.key)
  | expiry {e : CacheEntry} (found : m.cache.find? e.key = some e)
      (dead : CacheEntry.isLive m.time e = false) (unused : ∀ key, ¬m.Uses key)
      (unsettled : ∀ key, ¬m.Settles key) : Effect m (m.cache.without e.key)
  | removal {key : String} (unused : ∀ key, ¬m.Uses key)
      (settled : ∀ other, m.Settles other ↔ other = key) : Effect m (m.cache.without key)
  | write {key value : String} {limit : Nat} (writes : m.Writes key value limit) :
      Effect m (⟨key, value, limit⟩ :: (m.others key).take (m.cache.capacity - 1))

/-- A read settles nothing. -/
theorem not_settles_get {now : Nat} {c : MemoryCache} :
    ¬(Moment.mk now (.get key) c).Settles other := by
  rintro (⟨value, limit, lifetime, ⟨⟩, -⟩ | ⟨⟨⟩⟩)

/-- A read uses its key if it gives out a value. -/
theorem uses_get_iff (now : Nat) (key : String) (c : MemoryCache) (other : String) :
    (Moment.mk now (.get key) c).Uses other ↔
      other = key ∧ ∃ value, (c.get now key).1 = some value := by
  constructor
  · rintro (⟨value, limit, lifetime, ⟨⟩, -⟩ | ⟨⟨⟩, given⟩)
    exact ⟨rfl, given⟩
  · rintro ⟨rfl, given⟩
    exact .inr ⟨rfl, given⟩

/-- What a read does. -/
theorem effect_get (now : Nat) (key : String) (c : MemoryCache) :
    Effect ⟨now, .get key, c⟩ (c.get now key).2.entries := by
  have used := uses_get_iff now key c
  unfold MemoryCache.get at used ⊢
  cases found : c.find? key with
  | none =>
    simp only [found, reduceCtorEq, exists_const, and_false] at used ⊢
    exact .nothing (fun other uses => (used other).mp uses) fun _ => not_settles_get
  | some e =>
    obtain rfl := key_of_find? found
    cases lives : CacheEntry.isLive now e with
    | true =>
      simp only [found, lives, if_true, Option.some.injEq, exists_eq', and_true] at used ⊢
      exact .hit found used fun _ => not_settles_get
    | false =>
      simp only [found, lives, Bool.false_eq_true, if_false, reduceCtorEq, exists_const, and_false]
        at used ⊢
      exact .expiry found lives (fun other uses => (used other).mp uses) fun _ => not_settles_get

/-- What a write does. -/
theorem effect_set (now : Nat) (key value : String) (lifetime : Nat) (c : MemoryCache) :
    Effect ⟨now, .set key value lifetime, c⟩ (c.set now key value lifetime).2.entries := by
  unfold MemoryCache.set
  cases fits : expiry? now lifetime with
  | none =>
    have unwritten : ∀ other,
        ¬∃ value' limit, (Moment.mk now (.set key value lifetime) c).Writes other value' limit := by
      rintro other ⟨_, _, _, ⟨⟩, done, -⟩
      rw [set_ok_iff, fits] at done
      cases done
    refine .nothing ?_ ?_
    · rintro other (written | ⟨⟨⟩, -⟩)
      exact unwritten other written
    · rintro other (written | ⟨⟨⟩⟩)
      exact unwritten other written
  | some limit =>
    have limited := expiry_eq fits
    exact .write ⟨lifetime, rfl, set_ok_iff.mpr (limited ▸ fits), limited⟩

/-- What a removal does. -/
theorem effect_delete (now : Nat) (key : String) (c : MemoryCache) :
    Effect ⟨now, .delete key, c⟩ (c.delete key).entries := by
  refine .removal ?_ ?_
  · rintro other (⟨value, limit, lifetime, ⟨⟩, -⟩ | ⟨⟨⟩, -⟩)
  · intro other
    constructor
    · rintro (⟨value, limit, lifetime, ⟨⟩, -⟩ | ⟨⟨⟩⟩)
      rfl
    · rintro rfl
      exact .inr rfl

/-- A call has one of these effects. -/
theorem effect (m : Moment) : m.Effect m.after.entries := by
  obtain ⟨now, request, c⟩ := m
  cases request with
  | get key => exact effect_get now key c
  | set key value lifetime => exact effect_set now key value lifetime c
  | delete key => exact effect_delete now key c

/-- A call that writes a key settles no other. -/
theorem settles_iff_of_writes (writes : m.Writes key value limit) :
    m.Settles other ↔ other = key := by
  constructor
  · obtain ⟨_, asked, -⟩ := writes
    rintro (⟨_, _, _, asked', -⟩ | asked')
    · cases asked.symm.trans asked'
      rfl
    · cases asked.symm.trans asked'
  · rintro rfl
    exact .inl ⟨value, limit, writes⟩

/-- A call that writes a key uses no other. -/
theorem uses_iff_of_writes (writes : m.Writes key value limit) : m.Uses other ↔ other = key := by
  constructor
  · obtain ⟨_, asked, -⟩ := writes
    rintro (⟨_, _, _, asked', -⟩ | ⟨asked', -⟩)
    · cases asked.symm.trans asked'
      rfl
    · cases asked.symm.trans asked'
  · rintro rfl
    exact .inl ⟨value, limit, writes⟩

/-- A write puts its entry first and keeps as many of the other live entries as there is room
for. -/
theorem entries_of_writes (writes : m.Writes key value limit) :
    m.after.entries = ⟨key, value, limit⟩ :: (m.others key).take (m.cache.capacity - 1) := by
  obtain ⟨lifetime, asked, done, rfl⟩ := writes
  rw [after, asked, MemoryCache.after, MemoryCache.set, set_ok_iff.mp done]
  rfl

/-- A call leaves the capacity as it is. -/
theorem capacity_after (m : Moment) : m.after.capacity = m.cache.capacity := by
  obtain ⟨now, request, c⟩ := m
  cases request with
  | get key =>
    show (c.get now key).2.capacity = c.capacity
    unfold MemoryCache.get
    split
    · rfl
    · split <;> rfl
  | set key value lifetime =>
    show (c.set now key value lifetime).2.capacity = c.capacity
    unfold MemoryCache.set
    cases expiry? now lifetime <;> rfl
  | delete key => rfl

/-- Entries of other keys have other keys. -/
theorem ne_of_mem_without {c : MemoryCache} (member : e ∈ c.without key) : e.key ≠ key :=
  of_decide_eq_true (List.mem_filter.mp member).2

/-- An entry of another key is among them. -/
theorem mem_without {c : MemoryCache} (member : e ∈ c.entries) (other : e.key ≠ key) :
    e ∈ c.without key := List.mem_filter.mpr ⟨member, decide_eq_true other⟩

/-- Live entries of other keys have other keys. -/
theorem ne_of_mem_others (member : e ∈ m.others key) : e.key ≠ key :=
  of_decide_eq_true (List.mem_filter.mp member).2

/-- Live entries of other keys are entries. -/
theorem others_sublist (m : Moment) (key : String) : (m.others key).Sublist m.cache.entries :=
  List.filter_sublist.trans List.filter_sublist

/-- What a call leaves was there and is not settled, or was written. -/
theorem mem_of_mem_after (member : e ∈ m.after.entries) :
    e ∈ m.cache.entries ∧ ¬m.Settles e.key ∨ m.Writes e.key e.value e.expiresAt := by
  have effect := m.effect
  generalize m.after.entries = entries at effect member
  cases effect with
  | nothing unused unsettled => exact .inl ⟨member, unsettled _⟩
  | hit found used unsettled =>
    rcases List.mem_cons.mp member with rfl | rest
    · exact .inl ⟨List.mem_of_find?_eq_some found, unsettled _⟩
    · exact .inl ⟨(List.mem_filter.mp rest).1, unsettled _⟩
  | expiry found dead unused unsettled => exact .inl ⟨(List.mem_filter.mp member).1, unsettled _⟩
  | removal unused settled =>
    refine .inl ⟨(List.mem_filter.mp member).1, fun settles => ?_⟩
    exact ne_of_mem_without member ((settled _).mp settles)
  | write writes =>
    rcases List.mem_cons.mp member with rfl | rest
    · exact .inr writes
    · have there := List.mem_of_mem_take rest
      refine .inl ⟨(others_sublist m _).subset there, fun settles => ?_⟩
      exact ne_of_mem_others there ((settles_iff_of_writes writes).mp settles)

/-- Keys are distinct in front of entries with other keys. -/
theorem nodup_front {rest entries : List CacheEntry} (kept : rest.Sublist entries)
    (apart : ∀ o ∈ rest, o.key ≠ e.key) (distinct : (entries.map CacheEntry.key).Nodup) :
    ((e :: rest).map CacheEntry.key).Nodup := by
  refine List.nodup_cons.mpr ⟨fun member => ?_, distinct.sublist (kept.map _)⟩
  obtain ⟨o, there, same⟩ := List.mem_map.mp member
  exact apart o there same

/-- Keys stay distinct. -/
theorem nodup_after (distinct : (m.cache.entries.map CacheEntry.key).Nodup) :
    (m.after.entries.map CacheEntry.key).Nodup := by
  have effect := m.effect
  generalize m.after.entries = entries at effect
  cases effect with
  | nothing => exact distinct
  | hit => exact nodup_front List.filter_sublist (fun _ => ne_of_mem_without) distinct
  | expiry => exact distinct.sublist (List.filter_sublist.map _)
  | removal => exact distinct.sublist (List.filter_sublist.map _)
  | write =>
    exact nodup_front ((List.take_sublist _ _).trans (others_sublist m _))
      (fun _ member => ne_of_mem_others (List.mem_of_mem_take member)) distinct

/-- There is no more than the capacity allows. -/
theorem length_after_le (positive : 1 ≤ m.cache.capacity)
    (room : m.cache.entries.length ≤ m.cache.capacity) :
    m.after.entries.length ≤ m.cache.capacity := by
  have effect := m.effect
  generalize m.after.entries = entries at effect
  cases effect with
  | nothing => exact room
  | @hit e found =>
    have fewer : (m.cache.without e.key).length < m.cache.entries.length :=
      List.length_filter_lt_length_iff_exists.mpr
        ⟨e, List.mem_of_find?_eq_some found, by simp⟩
    exact Nat.le_trans fewer room
  | expiry => exact Nat.le_trans (List.length_filter_le _ _) room
  | removal => exact Nat.le_trans (List.length_filter_le _ _) room
  | write =>
    rw [List.length_cons, List.length_take]
    omega

/-- A key is live if it has a live entry. -/
theorem mem_liveKeys_iff {c : MemoryCache} {now : Nat} {key : String} :
    key ∈ c.liveKeys now ↔ ∃ e ∈ c.entries, CacheEntry.isLive now e = true ∧ e.key = key := by
  simp only [liveKeys, live, List.mem_map, List.mem_filter, and_assoc]

/-- An entry is live among those of other keys if it is live and has another key. -/
theorem mem_others_iff {key : String} : e ∈ m.others key ↔
    e ∈ m.cache.entries ∧ CacheEntry.isLive m.time e = true ∧ e.key ≠ key := by
  simp only [others, live, List.mem_filter, decide_eq_true_eq, and_assoc]

/-- Exactly the entries for which a write has no room are evicted. -/
theorem evicts_iff (distinct : (m.cache.entries.map CacheEntry.key).Nodup) {evicted : String} :
    m.Evicts evicted ↔ ∃ key value limit, m.Writes key value limit ∧
      ∃ e ∈ (m.others key).drop (m.cache.capacity - 1), e.key = evicted := by
  constructor
  · rintro ⟨lives, gone, unsettled⟩
    obtain ⟨e, member, alive, rfl⟩ := mem_liveKeys_iff.mp lives
    have gone : ∀ o ∈ m.after.entries, CacheEntry.isLive m.time o = true → o.key ≠ e.key :=
      fun o there alive same => gone (mem_liveKeys_iff.mpr ⟨o, there, alive, same⟩)
    have effect := m.effect
    generalize m.after.entries = entries at effect gone
    cases effect with
    | nothing => exact absurd rfl (gone e member alive)
    | @hit o found =>
      by_cases same : e.key = o.key
      · have there := List.mem_of_find?_eq_some found
        obtain rfl := eq_of_key distinct member there same
        exact absurd rfl (gone e List.mem_cons_self alive)
      · exact absurd rfl (gone e (List.mem_cons_of_mem _ (mem_without member same)) alive)
    | @expiry o found dead =>
      have other : e.key ≠ o.key := by
        intro same
        obtain rfl := eq_of_key distinct member (List.mem_of_find?_eq_some found) same
        cases alive.symm.trans dead
      exact absurd rfl (gone e (mem_without member other) alive)
    | removal unused settled =>
      have other := mt (settled _).mpr unsettled
      exact absurd rfl (gone e (mem_without member other) alive)
    | @write key value limit writes =>
      have other := mt (settles_iff_of_writes writes).mpr unsettled
      have among : e ∈ m.others key := mem_others_iff.mpr ⟨member, alive, other⟩
      refine ⟨key, value, limit, writes, e, ?_, rfl⟩
      rw [← List.take_append_drop (m.cache.capacity - 1) (m.others key)] at among
      rcases List.mem_append.mp among with kept | dropped
      · exact absurd rfl (gone e (List.mem_cons_of_mem _ kept) alive)
      · exact dropped
  · rintro ⟨key, value, limit, writes, e, dropped, rfl⟩
    obtain ⟨member, alive, other⟩ := mem_others_iff.mp (List.mem_of_mem_drop dropped)
    refine ⟨mem_liveKeys_iff.mpr ⟨e, member, alive, rfl⟩, fun left => ?_,
      mt (settles_iff_of_writes writes).mp other⟩
    obtain ⟨o, there, -, same⟩ := mem_liveKeys_iff.mp left
    rw [entries_of_writes writes] at there
    rcases List.mem_cons.mp there with rfl | kept
    · exact other same.symm
    · have unique := distinct.sublist ((others_sublist m key).map CacheEntry.key)
      rw [← List.take_append_drop (m.cache.capacity - 1) (m.others key), List.map_append] at unique
      exact (List.nodup_append.mp unique).2.2 _ (List.mem_map_of_mem kept) _
        (List.mem_map_of_mem dropped) same

end Moment

end StatusRegistry.MemoryCache
