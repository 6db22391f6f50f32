import StatusRegistry.Proofs.Cache.Calls

/-!
# The cache in memory forgets what was used least recently

What the cache in memory gives out is told by the calls before: it is the last value written, if its
time has not come and its key has been neither removed nor evicted since. Entries stand in the order
of their last use, so a write that finds the cache full of live entries evicts the last of them, and
nothing else evicts.
-/

namespace StatusRegistry.MemoryCache

/-- Calls of a cache with a capacity, latest first, and the cache after them. Time does not run
back. -/
inductive Lives (capacity : Nat) : List Moment → MemoryCache → Prop where
  | start : Lives capacity [] (.withCapacity capacity)
  | next {past : List Moment} {c : MemoryCache} (earlier : Lives capacity past c) (time : Nat)
      (request : Request) (onward : ∀ m ∈ past.head?, m.time ≤ time) :
      Lives capacity (⟨time, request, c⟩ :: past) (c.after time request)

/-- A call writes a key without a live entry to a cache full of live entries. -/
def Moment.NeedsRoom (m : Moment) (capacity : Nat) : Prop :=
  ∃ key, (∃ value limit, m.Writes key value limit) ∧ key ∉ m.cache.liveKeys m.time ∧
    (m.cache.liveKeys m.time).length = max capacity 1

/-- The last call that settled a key wrote a value until a time, and nothing has evicted the key
since. -/
def Stands (past : List Moment) (key value : String) (limit : Nat) : Prop :=
  ∃ later m earlier, past = later ++ m :: earlier ∧ m.Writes key value limit ∧
    ∀ l ∈ later, ¬l.Settles key ∧ ¬l.Evicts key

/-- The calls since a key was last used. -/
def SinceUse (past : List Moment) (key : String) (since : List Moment) : Prop :=
  ∃ m earlier, past = since ++ m :: earlier ∧ m.Uses key ∧ ∀ l ∈ since, ¬l.Uses key

/-- Of some keys one was used least recently: all others have been used since its last use. -/
def IsOldest (past : List Moment) (keys : List String) (key : String) : Prop :=
  key ∈ keys ∧ ∃ since, SinceUse past key since ∧
    ∀ other ∈ keys, other ≠ key → ∃ m ∈ since, m.Uses other

/-- A key has been used since another one was. -/
def UsedSince (past : List Moment) (key other : String) : Prop :=
  ∃ since earlier, past = since ++ earlier ∧ (∃ m ∈ since, m.Uses key) ∧
    ∀ m ∈ since, ¬m.Uses other

variable {past : List Moment} {m : Moment} {key other : String} {since : List Moment}

/-- It remains so until the other key is used. -/
theorem UsedSince.cons (used : UsedSince past key other) (unused : ¬m.Uses other) :
    UsedSince (m :: past) key other := by
  obtain ⟨since, earlier, rfl, ⟨u, member, uses⟩, none⟩ := used
  exact ⟨m :: since, earlier, rfl, ⟨u, List.mem_cons_of_mem _ member, uses⟩,
    List.forall_mem_cons.mpr ⟨unused, none⟩⟩

/-- A call that uses one key and not another one comes after the last use of the other. -/
theorem UsedSince.now (past : List Moment) (uses : m.Uses key) (unused : ¬m.Uses other) :
    UsedSince (m :: past) key other :=
  ⟨[m], past, rfl, ⟨m, List.mem_singleton.mpr rfl, uses⟩,
    List.forall_mem_singleton.mpr unused⟩

/-- A key that has been used has a last use. -/
theorem exists_sinceUse (used : ∃ m ∈ past, m.Uses key) : ∃ since, SinceUse past key since := by
  induction past with
  | nil =>
    obtain ⟨m, member, -⟩ := used
    cases member
  | cons m past inductionHypothesis =>
    by_cases uses : m.Uses key
    · exact ⟨[], m, past, rfl, uses, fun _ member => absurd member List.not_mem_nil⟩
    · have before : ∃ m ∈ past, m.Uses key := by
        obtain ⟨u, member, used⟩ := used
        rcases List.mem_cons.mp member with rfl | there
        · exact absurd used uses
        · exact ⟨u, there, used⟩
      obtain ⟨since, u, earlier, rfl, used, none⟩ := inductionHypothesis before
      exact ⟨m :: since, u, earlier, rfl, used, List.forall_mem_cons.mpr ⟨uses, none⟩⟩

/-- What has been used since the last use of a key has been used in the calls since then. -/
theorem UsedSince.mem_since (used : UsedSince past other key) (last : SinceUse past key since) :
    ∃ m ∈ since, m.Uses other := by
  obtain ⟨recent, earlier, same, ⟨u, member, uses⟩, none⟩ := used
  obtain ⟨m, before, rfl, used, -⟩ := last
  refine ⟨u, ?_, uses⟩
  rcases List.append_eq_append_iff.mp same with ⟨more, rfl, rest⟩ | ⟨more, rfl, -⟩
  · cases more with
    | nil => rwa [List.append_nil] at member
    | cons first more =>
      obtain rfl := (List.cons.inj rest).1
      exact absurd used (none m (List.mem_append_right _ List.mem_cons_self))
  · exact List.mem_append_left _ member

/-- No two keys are both used least recently. -/
theorem IsOldest.unique {keys : List String} (oldest : IsOldest past keys key)
    (oldest' : IsOldest past keys other) : key = other := by
  obtain ⟨member, since, ⟨m, earlier, rfl, -, none⟩, others⟩ := oldest
  obtain ⟨member', since', ⟨m', earlier', same, -, none'⟩, others'⟩ := oldest'
  by_contra distinct
  obtain ⟨u, there, uses⟩ := others other member' (Ne.symm distinct)
  obtain ⟨u', there', uses'⟩ := others' key member distinct
  -- Of the calls since the last uses of the two keys, one list begins with the other.
  have front : since <+: since ++ m :: earlier := List.prefix_append _ _
  have front' : since' <+: since ++ m :: earlier := same ▸ List.prefix_append _ _
  rcases List.prefix_or_prefix_of_prefix front front' with shorter | shorter
  · exact none' u (shorter.subset there) uses
  · exact none u' (shorter.subset there') uses'

namespace Moment

variable {m : Moment} {past : List Moment} {rest : List CacheEntry} {e : CacheEntry}

/-- A used entry comes first. -/
theorem ordered_front (used : ∀ key, m.Uses key ↔ key = e.key)
    (kept : rest.Sublist m.cache.entries) (apart : ∀ o ∈ rest, o.key ≠ e.key)
    (ordered : m.cache.entries.Pairwise fun e o => UsedSince past e.key o.key) :
    (e :: rest).Pairwise fun e o => UsedSince (m :: past) e.key o.key := by
  have unused : ∀ o ∈ rest, ¬m.Uses o.key := fun o member uses =>
    apart o member ((used _).mp uses)
  refine List.pairwise_cons.mpr ⟨fun o member => .now past ((used _).mpr rfl) (unused o member), ?_⟩
  exact (ordered.sublist kept).imp_of_mem fun _ member before => before.cons (unused _ member)

/-- Entries of unused keys stay in order. -/
theorem ordered_unused (unused : ∀ key, ¬m.Uses key) (kept : rest.Sublist m.cache.entries)
    (ordered : m.cache.entries.Pairwise fun e o => UsedSince past e.key o.key) :
    rest.Pairwise fun e o => UsedSince (m :: past) e.key o.key :=
  (ordered.sublist kept).imp fun before => before.cons (unused _)

/-- Entries stay in the order of their last use. -/
theorem ordered_after (ordered : m.cache.entries.Pairwise fun e o => UsedSince past e.key o.key) :
    m.after.entries.Pairwise fun e o => UsedSince (m :: past) e.key o.key := by
  have effect := m.effect
  generalize m.after.entries = entries at effect
  cases effect with
  | nothing unused => exact ordered_unused unused (.refl _) ordered
  | hit found used =>
    exact ordered_front used List.filter_sublist (fun _ => ne_of_mem_without) ordered
  | expiry found dead unused => exact ordered_unused unused List.filter_sublist ordered
  | removal unused => exact ordered_unused unused List.filter_sublist ordered
  | write writes =>
    exact ordered_front (fun _ => uses_iff_of_writes writes)
      ((List.take_sublist _ _).trans (others_sublist m _))
      (fun _ member => ne_of_mem_others (List.mem_of_mem_take member)) ordered

end Moment

/-- What holds of a cache with a capacity after some calls: it holds no more than it may, one entry
for each key, in the order of their last use, and exactly the values that stand, up to those whose
time has come. -/
structure IsCurrent (capacity : Nat) (past : List Moment) (c : MemoryCache) : Prop where
  bounded : c.capacity = max capacity 1
  room : c.entries.length ≤ c.capacity
  distinct : (c.entries.map CacheEntry.key).Nodup
  ordered : c.entries.Pairwise fun e o => UsedSince past e.key o.key
  stands : ∀ e ∈ c.entries, Stands past e.key e.value e.expiresAt
  held : ∀ key value limit, Stands past key value limit → (∀ m ∈ past.head?, m.time < limit) →
    ⟨key, value, limit⟩ ∈ c.entries

variable {capacity : Nat} {c : MemoryCache} {value : String} {limit : Nat} {e last : CacheEntry}
  {front : List CacheEntry}

/-- A value still stands after a call that neither settles nor evicts its key. -/
theorem Stands.cons (stands : Stands past key value limit) (unsettled : ¬m.Settles key)
    (unevicted : ¬m.Evicts key) : Stands (m :: past) key value limit := by
  obtain ⟨later, u, earlier, rfl, writes, quiet⟩ := stands
  exact ⟨m :: later, u, earlier, rfl, writes,
    List.forall_mem_cons.mpr ⟨⟨unsettled, unevicted⟩, quiet⟩⟩

/-- A value stands if the last call wrote it, or if it stood before and the last call neither
settles nor evicts its key. -/
theorem stands_cons (stands : Stands (m :: past) key value limit) :
    m.Writes key value limit ∨
      Stands past key value limit ∧ ¬m.Settles key ∧ ¬m.Evicts key := by
  obtain ⟨later, u, earlier, same, writes, quiet⟩ := stands
  cases later with
  | nil =>
    obtain ⟨rfl, rfl⟩ := List.cons.inj same
    exact .inl writes
  | cons first later =>
    obtain ⟨rfl, rfl⟩ := List.cons.inj same
    exact .inr ⟨⟨later, u, earlier, rfl, writes, (List.forall_mem_cons.mp quiet).2⟩,
      (List.forall_mem_cons.mp quiet).1⟩

/-- A value that stands has been written, so its key has been used. -/
theorem Stands.used (stands : Stands past key value limit) : ∃ m ∈ past, m.Uses key := by
  obtain ⟨later, u, earlier, rfl, writes, -⟩ := stands
  exact ⟨u, List.mem_append_right _ List.mem_cons_self, .inl ⟨value, limit, writes⟩⟩

namespace IsCurrent

/-- A new cache holds nothing. -/
theorem start (capacity : Nat) : IsCurrent capacity [] (.withCapacity capacity) where
  bounded := rfl
  room := Nat.zero_le _
  distinct := List.nodup_nil
  ordered := .nil
  stands := fun _ member => absurd member List.not_mem_nil
  held := by
    rintro key value limit ⟨later, u, earlier, same, -⟩
    cases later <;> cases same

/-- The entries that a call leaves stand. -/
theorem stands_after (current : IsCurrent capacity past m.cache) (member : e ∈ m.after.entries) :
    Stands (m :: past) e.key e.value e.expiresAt := by
  rcases Moment.mem_of_mem_after member with ⟨there, unsettled⟩ | writes
  · refine (current.stands e there).cons unsettled ?_
    rintro ⟨lives, gone, -⟩
    obtain ⟨o, before, alive, same⟩ := Moment.mem_liveKeys_iff.mp lives
    obtain rfl := eq_of_key current.distinct before there same
    exact gone (Moment.mem_liveKeys_iff.mpr ⟨o, member, alive, rfl⟩)
  · exact ⟨[], m, past, rfl, writes, fun _ none => absurd none List.not_mem_nil⟩

/-- The values that stand after a call and have time left are held. -/
theorem held_after (current : IsCurrent capacity past m.cache)
    (onward : ∀ l ∈ past.head?, l.time ≤ m.time) (stands : Stands (m :: past) key value limit)
    (time : m.time < limit) : ⟨key, value, limit⟩ ∈ m.after.entries := by
  rcases stands_cons stands with writes | ⟨before, unsettled, unevicted⟩
  · rw [Moment.entries_of_writes writes]
    exact List.mem_cons_self
  · have there := current.held key value limit before fun l first =>
      Nat.lt_of_le_of_lt (onward l first) time
    have lives : key ∈ m.cache.liveKeys m.time :=
      Moment.mem_liveKeys_iff.mpr ⟨_, there, decide_eq_true time, rfl⟩
    have left : key ∈ m.after.liveKeys m.time := by
      by_contra gone
      exact unevicted ⟨lives, gone, unsettled⟩
    obtain ⟨o, member, -, named⟩ := Moment.mem_liveKeys_iff.mp left
    rcases Moment.mem_of_mem_after member with ⟨old, -⟩ | writes
    · have same := eq_of_key current.distinct old there named
      exact same ▸ member
    · exact absurd (.inl ⟨_, _, named ▸ writes⟩) unsettled

/-- What holds before a call holds after it. -/
theorem next (current : IsCurrent capacity past m.cache)
    (onward : ∀ l ∈ past.head?, l.time ≤ m.time) : IsCurrent capacity (m :: past) m.after where
  bounded := m.capacity_after.trans current.bounded
  room := by
    rw [m.capacity_after]
    exact Moment.length_after_le (current.bounded ▸ Nat.le_max_right _ _) current.room
  distinct := Moment.nodup_after current.distinct
  ordered := Moment.ordered_after current.ordered
  stands := fun _ => current.stands_after
  held := fun _ _ _ stands times =>
    current.held_after onward stands (times m rfl)

/-- The last live entry is the one of the key that was used least recently. -/
theorem isOldest_last {now : Nat} (current : IsCurrent capacity past c)
    (ends : c.live now = front ++ [last]) : IsOldest past (c.liveKeys now) last.key := by
  have member : last ∈ c.live now := ends ▸ List.mem_append_right _ (List.mem_singleton.mpr rfl)
  have ordered := current.ordered.sublist (List.filter_sublist (p := CacheEntry.isLive now))
  rw [show c.entries.filter _ = front ++ [last] from ends] at ordered
  obtain ⟨since, used⟩ := exists_sinceUse (current.stands last (List.mem_filter.mp member).1).used
  refine ⟨List.mem_map_of_mem member, since, used, fun other there distinct => ?_⟩
  obtain ⟨e, among, rfl⟩ := List.mem_map.mp there
  rw [ends] at among
  rcases List.mem_append.mp among with before | same
  · exact ((List.pairwise_append.mp ordered).2.2 e before last
      (List.mem_singleton.mpr rfl)).mem_since used
  · rw [List.mem_singleton.mp same] at distinct
    exact absurd rfl distinct

/-- Live entries are no more than the capacity. -/
theorem length_live_le (current : IsCurrent capacity past c) (now : Nat) :
    (c.live now).length ≤ c.capacity :=
  Nat.le_trans (List.length_filter_le _ _) current.room

/-- A write needs room if it evicts. -/
theorem needsRoom_of_evicts (current : IsCurrent capacity past m.cache) (evicts : m.Evicts other) :
    m.NeedsRoom capacity := by
  obtain ⟨key, value, limit, writes, e, dropped, -⟩ :=
    (Moment.evicts_iff current.distinct).mp evicts
  have full : m.cache.capacity ≤ (m.others key).length := by
    have some := List.length_pos_of_mem dropped
    rw [List.length_drop] at some
    omega
  have among : (m.others key).length ≤ (m.cache.live m.time).length := List.length_filter_le _ _
  have bound := current.length_live_le m.time
  have whole : (m.others key).length = (m.cache.live m.time).length := by omega
  have every : ∀ o ∈ m.cache.live m.time, decide (o.key ≠ key) = true :=
    List.length_filter_eq_length_iff.mp whole
  refine ⟨key, ⟨value, limit, writes⟩, fun member => ?_, ?_⟩
  · obtain ⟨o, there, same⟩ := List.mem_map.mp member
    exact of_decide_eq_true (every o there) same
  · rw [liveKeys, List.length_map, ← current.bounded]
    omega

/-- A write that needs room evicts the last live entry and no other. -/
theorem evicts_last (current : IsCurrent capacity past m.cache) (needs : m.NeedsRoom capacity) :
    ∃ front last, m.cache.live m.time = front ++ [last] ∧
      front.length + 1 = max capacity 1 ∧ ∀ key, m.Evicts key ↔ key = last.key := by
  obtain ⟨key, ⟨value, limit, writes⟩, absent, full⟩ := needs
  rw [liveKeys, List.length_map] at full
  have every : m.others key = m.cache.live m.time := by
    refine List.filter_eq_self.mpr fun o member => decide_eq_true fun same => ?_
    exact absent (same ▸ List.mem_map_of_mem member)
  rcases List.eq_nil_or_concat (m.cache.live m.time) with nothing | ⟨front, last, ends⟩
  · rw [nothing, List.length_nil] at full
    omega
  · rw [List.concat_eq_append] at ends
    rw [ends, List.length_append, List.length_singleton] at full
    refine ⟨front, last, ends, full, fun evicted => ?_⟩
    have dropped : (m.others key).drop (m.cache.capacity - 1) = [last] := by
      rw [every, ends, current.bounded, ← full, Nat.add_sub_cancel, List.drop_left]
    rw [Moment.evicts_iff current.distinct]
    constructor
    · rintro ⟨key', _, _, writes', e, member, rfl⟩
      obtain rfl : key' = key := (Moment.uses_iff_of_writes writes).mp (.inl ⟨_, _, writes'⟩)
      rw [dropped] at member
      rw [List.mem_singleton.mp member]
    · rintro rfl
      exact ⟨key, value, limit, writes, last, dropped ▸ List.mem_singleton.mpr rfl, rfl⟩

/-- Exactly the key that was used least recently is evicted, and only by a write that needs room. -/
theorem evicts_iff (current : IsCurrent capacity past m.cache) :
    m.Evicts key ↔ m.NeedsRoom capacity ∧ IsOldest past (m.cache.liveKeys m.time) key := by
  constructor
  · intro evicts
    have needs := current.needsRoom_of_evicts evicts
    obtain ⟨front, last, ends, -, only⟩ := current.evicts_last needs
    obtain rfl := (only key).mp evicts
    exact ⟨needs, current.isOldest_last ends⟩
  · rintro ⟨needs, oldest⟩
    obtain ⟨front, last, ends, -, only⟩ := current.evicts_last needs
    exact (only key).mpr (oldest.unique (current.isOldest_last ends))

/-- As many other keys as there is room for have been used since the last use of an evicted key. -/
theorem used_of_evicts (current : IsCurrent capacity past m.cache) (evicts : m.Evicts key) :
    ∃ since, SinceUse past key since ∧ ∃ others : List String, others.Nodup ∧ key ∉ others ∧
      others.length = max capacity 1 ∧ ∀ other ∈ others, ∃ u ∈ m :: since, u.Uses other := by
  obtain ⟨needs, member, since, used, uses⟩ := current.evicts_iff.mp evicts
  obtain ⟨front, last, ends, size, only⟩ := current.evicts_last needs
  obtain rfl := (only key).mp evicts
  obtain ⟨written, ⟨value, limit, writes⟩, absent, -⟩ := needs
  have unique : (m.cache.liveKeys m.time).Nodup :=
    current.distinct.sublist (List.filter_sublist.map _)
  rw [liveKeys, ends, List.map_append, List.map_singleton] at unique absent uses
  obtain ⟨distinct, -, apart⟩ := List.nodup_append.mp unique
  refine ⟨since, used, written :: front.map CacheEntry.key, ?_, ?_, ?_, ?_⟩
  · exact List.nodup_cons.mpr ⟨fun there => absent (List.mem_append_left _ there), distinct⟩
  · intro there
    rcases List.mem_cons.mp there with same | before
    · exact absent (same ▸ List.mem_append_right _ (List.mem_singleton.mpr rfl))
    · exact apart _ before _ (List.mem_singleton.mpr rfl) rfl
  · rw [List.length_cons, List.length_map, size]
  · intro other there
    rcases List.mem_cons.mp there with rfl | before
    · exact ⟨m, List.mem_cons_self, .inl ⟨value, limit, writes⟩⟩
    · obtain ⟨u, among, used⟩ := uses other (List.mem_append_left _ before)
        (apart _ before _ (List.mem_singleton.mpr rfl))
      exact ⟨u, List.mem_cons_of_mem _ among, used⟩

/-- A read gives out the value that stands, if it has time left. -/
theorem get_eq_some_iff {now : Nat} (current : IsCurrent capacity past c)
    (onward : ∀ m ∈ past.head?, m.time ≤ now) :
    (c.get now key).1 = some value ↔ ∃ limit, Stands past key value limit ∧ now < limit := by
  constructor
  · intro given
    obtain ⟨e, member, rfl, rfl, time⟩ := mem_of_get given
    exact ⟨e.expiresAt, current.stands e member, time⟩
  · rintro ⟨limit, stands, time⟩
    have member := current.held key value limit stands fun m first =>
      Nat.lt_of_le_of_lt (onward m first) time
    have alive : CacheEntry.isLive now ⟨key, value, limit⟩ = true := decide_eq_true time
    rw [get, find?_of_mem current.distinct member]
    simp only [alive, if_true]

end IsCurrent

/-- This holds in the whole course of calls. -/
theorem Lives.isCurrent (lives : Lives capacity past c) : IsCurrent capacity past c := by
  induction lives with
  | start => exact .start capacity
  | next _ time request onward inductionHypothesis =>
    exact inductionHypothesis.next (m := ⟨time, request, _⟩) onward

/-- A course of calls passes through each of its calls, not before the calls before it. -/
theorem Lives.before {later : List Moment} (lives : Lives capacity (later ++ m :: past) c) :
    Lives capacity past m.cache ∧ ∀ l ∈ past.head?, l.time ≤ m.time := by
  induction later generalizing c with
  | nil =>
    cases lives with
    | next earlier time request onward => exact ⟨earlier, onward⟩
  | cons first later inductionHypothesis =>
    cases lives with
    | next earlier => exact inductionHypothesis earlier

/-- A call evicts as one of a cache that forgets what was used least recently. The live keys are
those whose values stand and have time left. One of them is evicted only by a write that finds no
room and has none of them for its key; then it is the one used least recently and no other, and as
many other keys as there is room for have been used since its last use. -/
structure Moment.EvictsOldest (m : Moment) (capacity : Nat) (past : List Moment) : Prop where
  live : ∀ key, key ∈ m.cache.liveKeys m.time ↔
    ∃ value limit, Stands past key value limit ∧ m.time < limit
  distinct : (m.cache.liveKeys m.time).Nodup
  evicted : ∀ key, m.Evicts key ↔
    m.NeedsRoom capacity ∧ IsOldest past (m.cache.liveKeys m.time) key
  single : m.NeedsRoom capacity → ∃ key, ∀ other, m.Evicts other ↔ other = key
  busy : ∀ key, m.Evicts key → ∃ since, SinceUse past key since ∧
    ∃ others : List String, others.Nodup ∧ key ∉ others ∧ others.length = max capacity 1 ∧
      ∀ other ∈ others, ∃ u ∈ m :: since, u.Uses other

/-- A call of a current cache evicts what was used least recently. -/
theorem IsCurrent.evictsOldest (current : IsCurrent capacity past m.cache)
    (onward : ∀ l ∈ past.head?, l.time ≤ m.time) : m.EvictsOldest capacity past where
  live := by
    intro key
    constructor
    · intro lives
      obtain ⟨e, member, alive, rfl⟩ := Moment.mem_liveKeys_iff.mp lives
      exact ⟨e.value, e.expiresAt, current.stands e member, of_decide_eq_true alive⟩
    · rintro ⟨value, limit, stands, time⟩
      have member := current.held key value limit stands fun l first =>
        Nat.lt_of_le_of_lt (onward l first) time
      exact Moment.mem_liveKeys_iff.mpr ⟨_, member, decide_eq_true time, rfl⟩
  distinct := current.distinct.sublist (List.filter_sublist.map _)
  evicted := fun _ => current.evicts_iff
  single := by
    intro needs
    obtain ⟨front, last, -, -, only⟩ := current.evicts_last needs
    exact ⟨last.key, only⟩
  busy := fun _ => current.used_of_evicts

/-- How a read of the cache in memory is told. -/
theorem told_get (c : MemoryCache) (now : Nat) (key : String) :
    ((Cache.memory c).get now key).1 =
      match (c.get now key).1 with
      | some value => .ok value
      | none => .error (.miss key) := by
  simp only [Cache.get]
  obtain ⟨_ | value, after⟩ := c.get now key <;> rfl

/-- What a read leaves of the cache in memory. It sends no command. -/
theorem left_get (c : MemoryCache) (now : Nat) (key : String) :
    ((Cache.memory c).get now key).2 = ([], .memory (c.get now key).2) := by
  simp only [Cache.get]
  obtain ⟨_ | value, after⟩ := c.get now key <;> rfl

/-- In every course of calls a read gives out exactly the value that stands under its key and has
time left, and misses where there is none; and every call evicts as one of a cache that forgets what
was used least recently. -/
theorem forgets_least_recent (lives : Lives capacity past c) :
    (∀ now key, (∀ m ∈ past.head?, m.time ≤ now) →
      (∀ value, ((Cache.memory c).get now key).1 = .ok value ↔
        ∃ limit, Stands past key value limit ∧ now < limit) ∧
      ((¬∃ value limit, Stands past key value limit ∧ now < limit) →
        ((Cache.memory c).get now key).1 = .error (.miss key))) ∧
    ∀ later m earlier, past = later ++ m :: earlier → m.EvictsOldest capacity earlier := by
  refine ⟨fun now key onward => ?_, ?_⟩
  · have given (value : String) : (c.get now key).1 = some value ↔
        ∃ limit, Stands past key value limit ∧ now < limit :=
      lives.isCurrent.get_eq_some_iff onward
    rw [told_get]
    cases read : (c.get now key).1 with
    | none =>
      rw [read] at given
      exact ⟨fun value => ⟨nofun, fun stands => nomatch (given value).mpr stands⟩, fun _ => rfl⟩
    | some value =>
      rw [read] at given
      refine ⟨fun other => ?_, fun nothing => absurd ⟨value, (given value).mp rfl⟩ nothing⟩
      rw [← given other, Option.some.injEq]
      exact ⟨Except.ok.inj, congrArg Except.ok⟩
  · rintro later m earlier rfl
    obtain ⟨before, onward⟩ := lives.before
    exact before.isCurrent.evictsOldest onward

namespace SmallCache

/-- A value is written to a cache with room for two. -/
def opening : Moment := ⟨0, .set "a" "1" 60, .withCapacity 2⟩

/-- Another value is written under another key. -/
def filling : Moment := ⟨second, .set "b" "2" 60, opening.after⟩

/-- The first value is read. -/
def reading : Moment := ⟨2 * second, .get "a", filling.after⟩

/-- A third value is written. -/
def closing : Moment := ⟨3 * second, .set "c" "3" 60, reading.after⟩

/-- These calls follow each other. -/
theorem lives : Lives 2 [closing, reading, filling, opening] closing.after := by
  have opened : Lives 2 [opening] opening.after := .next .start _ _ nofun
  have filled : Lives 2 [filling, opening] filling.after := .next opened _ _ (by decide)
  have read : Lives 2 [reading, filling, opening] reading.after := .next filled _ _ (by decide)
  exact .next read _ _ (by decide)

/-- The third write needs room. -/
theorem closing_needsRoom : closing.NeedsRoom 2 :=
  ⟨"c", ⟨"3", _, 60, rfl, rfl, rfl⟩, by decide, by decide⟩

/-- The second key has not been used since it was written, but the first one has. -/
theorem isOldest_filled : IsOldest [reading, filling, opening] ["a", "b"] "b" := by
  refine ⟨by decide, [reading], ⟨filling, [opening], rfl, .inl ⟨"2", _, 60, rfl, rfl, rfl⟩, ?_⟩, ?_⟩
  · refine List.forall_mem_singleton.mpr ?_
    rintro (⟨_, _, _, ⟨⟩, -⟩ | ⟨asked, -⟩)
    exact absurd (Request.get.inj asked) (by decide)
  · intro other member distinct
    refine ⟨reading, List.mem_singleton.mpr rfl, .inr ?_⟩
    rcases List.mem_pair.mp member with rfl | rfl
    · exact ⟨rfl, "1", by decide⟩
    · exact absurd rfl distinct

end SmallCache

open SmallCache in
/-- A cache with room for two that has read its first value gives up its second one for a third. -/
theorem second_value_is_evicted :
    Lives 2 [closing, reading, filling, opening] closing.after ∧
    (∃ limit, Stands [closing, reading, filling, opening] "a" "1" limit ∧ 4 * second < limit) ∧
    closing.Evicts "b" ∧ ¬closing.Evicts "a" := by
  obtain ⟨reads, evicts⟩ := forgets_least_recent lives
  have only := evicts [] closing _ rfl
  have evicted : closing.Evicts "b" :=
    (only.evicted "b").mpr ⟨closing_needsRoom, isOldest_filled⟩
  refine ⟨lives, ?_, evicted, fun other => ?_⟩
  · exact ((reads (4 * second) "a" (by decide)).1 "1").mp (by decide)
  · obtain ⟨key, single⟩ := only.single closing_needsRoom
    exact absurd (((single _).mp other).trans ((single _).mp evicted).symm) (by decide)

end StatusRegistry.MemoryCache
