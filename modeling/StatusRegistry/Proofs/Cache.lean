import StatusRegistry.Cache

/-!
# What caches hold

A cache holds a text under a key whether or not its time has come, and the cache in memory keeps the
time with it. Whatever a cache gives out it holds, a write adds at most the written text with its
time, and a removal that succeeds leaves nothing under its key. Every other call, and every
eviction, only makes a cache hold less.
-/

namespace StatusRegistry

namespace MemoryCache

variable {c : MemoryCache} {now : Nat} {key text : String} {e : CacheEntry}

/-- What a read leaves was there before. -/
theorem mem_of_mem_get (member : e ∈ (c.get now key).2.entries) : e ∈ c.entries := by
  unfold get at member
  cases found : c.find? key with
  | none =>
    rw [found] at member
    exact member
  | some entry =>
    rw [found] at member
    simp only at member
    split at member
    · rcases List.mem_cons.mp member with rfl | other
      · exact List.mem_of_find?_eq_some found
      · exact (List.mem_filter.mp other).1
    · exact (List.mem_filter.mp member).1

/-- What a read gives out is the value of an entry under its key whose time has not come. -/
theorem mem_of_get (given : (c.get now key).1 = some text) :
    ∃ e ∈ c.entries, e.key = key ∧ e.value = text ∧ now < e.expiresAt := by
  unfold get at given
  cases found : c.find? key with
  | none =>
    rw [found] at given
    cases given
  | some entry =>
    rw [found] at given
    simp only at given
    split at given
    · rename_i live
      have same := List.find?_some found
      exact ⟨entry, List.mem_of_find?_eq_some found, of_decide_eq_true same, Option.some.inj given,
        of_decide_eq_true live⟩
    · cases given

/-- The time of an entry is its lifetime from now. -/
theorem expiry_eq {lifetime time : Nat} (fits : expiry? now lifetime = some time) :
    time = now + second * lifetime := by
  simp only [expiry?] at fits
  split at fits
  · exact (Option.some.inj fits).symm
  · cases fits

/-- What a write leaves was there before or was written. -/
theorem mem_of_mem_set {value : String} {lifetime : Nat}
    (member : e ∈ (c.set now key value lifetime).2.entries) :
    e ∈ c.entries ∨ e.key = key ∧ e.value = value ∧ e.expiresAt = now + second * lifetime := by
  unfold set at member
  cases fits : expiry? now lifetime with
  | none =>
    rw [fits] at member
    exact .inl member
  | some time =>
    rw [fits] at member
    rcases List.mem_cons.mp member with rfl | other
    · exact .inr ⟨rfl, rfl, expiry_eq fits⟩
    · have live := (List.mem_filter.mp (List.mem_of_mem_take other)).1
      exact .inl (List.mem_filter.mp live).1

/-- What a removal leaves is under another key. -/
theorem mem_of_mem_delete (member : e ∈ (c.delete key).entries) : e.key ≠ key ∧ e ∈ c.entries :=
  ⟨of_decide_eq_true (List.mem_filter.mp member).2, (List.mem_filter.mp member).1⟩

end MemoryCache

namespace Redis

variable {r : Redis} {key text : String} {pair : String × String}

/-- A command is refused and changes nothing, or it is performed. -/
theorem execute_cases (r : Redis) (c : Command) :
    (∃ line, r.execute c = (.error line, r)) ∨ r.execute c = r.perform c := by
  unfold execute
  split
  · exact .inl ⟨_, rfl⟩
  · exact .inr rfl

/-- A read changes nothing. -/
theorem get_snd (r : Redis) (key : String) : (r.get key).2 = r := by
  unfold get
  obtain ⟨line, refused⟩ | performed := r.execute_cases (.get key)
  · rw [refused]
  · rw [performed, perform]
    cases r.values.lookup key <;> rfl

/-- What a read gives out is under its key. -/
theorem mem_of_get (given : (r.get key).1 = .ok text) : (key, text) ∈ r.values := by
  unfold get at given
  obtain ⟨line, refused⟩ | performed := r.execute_cases (.get key)
  · rw [refused] at given
    cases given
  · rw [performed, perform] at given
    cases found : r.values.lookup key with
    | none =>
      rw [found] at given
      cases given
    | some value =>
      rw [found] at given
      cases given
      obtain ⟨_, _, split, _⟩ := List.lookup_eq_some_iff.mp found
      rw [split]
      simp

/-- What a write leaves was there before or was written. -/
theorem mem_of_mem_set {value : String} {lifetime : Nat}
    (member : pair ∈ (r.set key value lifetime).2.values) :
    pair ∈ r.values ∨ pair = (key, value) := by
  unfold set at member
  obtain ⟨line, refused⟩ | performed := r.execute_cases (.setex key lifetime value)
  · rw [refused] at member
    exact .inl member
  · rw [performed, perform] at member
    by_cases long : lifetime > maxLifetime
    · rw [if_pos long] at member
      exact .inl member
    · by_cases zero : lifetime = 0
      · rw [if_neg long, if_pos zero] at member
        exact .inl member
      · rw [if_neg long, if_neg zero] at member
        rcases List.mem_cons.mp member with rfl | other
        · exact .inr rfl
        · exact .inl (List.mem_filter.mp other).1

/-- What a removal leaves was there before, and is under another key if the removal succeeds. -/
theorem mem_of_mem_delete (member : pair ∈ (r.delete key).2.values) :
    pair ∈ r.values ∧ ((r.delete key).1 = .ok () → pair.1 ≠ key) := by
  unfold delete at member ⊢
  obtain ⟨line, refused⟩ | performed := r.execute_cases (.del key)
  · rw [refused] at member ⊢
    exact ⟨member, nofun⟩
  · rw [performed, perform] at member
    have kept := List.mem_filter.mp member
    exact ⟨kept.1, fun _ => of_decide_eq_true kept.2⟩

/-- A write sets no command to fail. -/
theorem set_faults (r : Redis) (key value : String) (lifetime : Nat) :
    (r.set key value lifetime).2.faults = r.faults := by
  unfold set
  obtain ⟨line, refused⟩ | performed := r.execute_cases (.setex key lifetime value)
  · rw [refused]
  · rw [performed, perform]
    by_cases long : lifetime > maxLifetime
    · rw [if_pos long]
    · by_cases zero : lifetime = 0
      · rw [if_neg long, if_pos zero]
      · rw [if_neg long, if_neg zero]

/-- A removal sets no command to fail. -/
theorem delete_faults (r : Redis) (key : String) : (r.delete key).2.faults = r.faults := by
  unfold delete
  obtain ⟨line, refused⟩ | performed := r.execute_cases (.del key)
  · rw [refused]
  · rw [performed, perform]

end Redis

namespace Cache

/-- A cache has a text under a key, whether or not its time has come. -/
def Holds (c : Cache) (key text : String) : Prop :=
  match c with
  | .none => False
  | .memory m => ∃ e ∈ m.entries, e.key = key ∧ e.value = text
  | .redis r => (key, text) ∈ r.values

/-- A cache has a text under a key up to a time, if it is one that keeps times. -/
def Keeps (c : Cache) (key text : String) (limit : Option Nat) : Prop :=
  match c with
  | .none => False
  | .memory m => ∃ e ∈ m.entries, e.key = key ∧ e.value = text ∧ limit = some e.expiresAt
  | .redis r => (key, text) ∈ r.values ∧ limit = Option.none

variable {c : Cache} {now : Nat} {key other text value : String} {limit : Option Nat}

/-- A cache holds what it keeps up to some time. -/
theorem holds_iff_keeps : c.Holds key text ↔ ∃ limit, c.Keeps key text limit := by
  cases c with
  | none => exact ⟨False.elim, fun ⟨_, kept⟩ => kept⟩
  | memory m =>
    constructor
    · rintro ⟨e, member, named, valued⟩
      exact ⟨_, e, member, named, valued, rfl⟩
    · rintro ⟨_, e, member, named, valued, -⟩
      exact ⟨e, member, named, valued⟩
  | redis r => exact ⟨fun member => ⟨_, member, rfl⟩, fun ⟨_, member, _⟩ => member⟩

/-- A cache keeps what it gives out. The cache in memory gives nothing out whose time has come. -/
theorem keeps_of_get (given : (c.get now key).1 = .ok text) :
    ∃ limit, c.Keeps key text limit ∧
      (c.backend = .memory → ∃ time, limit = some time ∧ now < time) := by
  cases c with
  | none => cases given
  | memory m =>
    have found : (m.get now key).1 = some text := by
      simp only [get] at given
      split at given
      · rename_i read
        cases given
        rw [read]
      · cases given
    obtain ⟨e, member, named, valued, live⟩ := MemoryCache.mem_of_get found
    exact ⟨_, ⟨e, member, named, valued, rfl⟩, fun _ => ⟨_, rfl, live⟩⟩
  | redis r => exact ⟨_, ⟨Redis.mem_of_get given, rfl⟩, nofun⟩

/-- A read leaves nothing that was not there. -/
theorem keeps_of_keeps_get (kept : (c.get now key).2.2.Keeps other text limit) :
    c.Keeps other text limit := by
  cases c with
  | none => exact kept
  | memory m =>
    have left : (Cache.memory (m.get now key).2).Keeps other text limit := by
      simp only [get] at kept
      split at kept <;> (rename_i read; rw [read]; exact kept)
    obtain ⟨e, member, named, valued, rfl⟩ := left
    exact ⟨e, MemoryCache.mem_of_mem_get member, named, valued, rfl⟩
  | redis r =>
    have same := r.get_snd key
    exact same ▸ kept

/-- A write leaves nothing that was not there but the written text, up to its time. -/
theorem keeps_of_keeps_set {lifetime : Nat}
    (kept : (c.set now key value lifetime).2.2.Keeps other text limit) :
    c.Keeps other text limit ∨ other = key ∧ text = value ∧
      ∀ time, limit = some time → time = now + MemoryCache.second * lifetime := by
  cases c with
  | none => exact kept.elim
  | memory m =>
    obtain ⟨e, member, rfl, rfl, rfl⟩ := kept
    rcases MemoryCache.mem_of_mem_set member with before | ⟨named, valued, ends⟩
    · exact .inl ⟨e, before, rfl, rfl, rfl⟩
    · refine .inr ⟨named, valued, ?_⟩
      rintro _ ⟨⟩
      exact ends
  | redis r =>
    obtain ⟨member, rfl⟩ := kept
    rcases Redis.mem_of_mem_set member with before | written
    · exact .inl ⟨before, rfl⟩
    · obtain ⟨named, valued⟩ := Prod.mk.inj written
      exact .inr ⟨named, valued, nofun⟩

/-- A removal leaves nothing that was not there, whether or not it succeeds. -/
theorem keeps_of_keeps_delete (kept : (c.delete key).2.2.Keeps other text limit) :
    c.Keeps other text limit := by
  cases c with
  | none => exact kept
  | memory m =>
    obtain ⟨e, member, named, valued, rfl⟩ := kept
    exact ⟨e, (MemoryCache.mem_of_mem_delete member).2, named, valued, rfl⟩
  | redis r =>
    obtain ⟨member, rfl⟩ := kept
    exact ⟨(Redis.mem_of_mem_delete member).1, rfl⟩

/-- A cache holds what it gives out. -/
theorem holds_of_get (given : (c.get now key).1 = .ok text) : c.Holds key text := by
  obtain ⟨limit, kept, -⟩ := keeps_of_get given
  exact holds_iff_keeps.mpr ⟨limit, kept⟩

/-- A read makes a cache hold nothing that it did not hold. -/
theorem holds_of_holds_get (held : (c.get now key).2.2.Holds other text) : c.Holds other text := by
  obtain ⟨limit, kept⟩ := holds_iff_keeps.mp held
  exact holds_iff_keeps.mpr ⟨limit, keeps_of_keeps_get kept⟩

/-- A write makes a cache hold nothing that it did not hold but the written text. -/
theorem holds_of_holds_set {lifetime : Nat}
    (held : (c.set now key value lifetime).2.2.Holds other text) :
    c.Holds other text ∨ other = key ∧ text = value := by
  obtain ⟨limit, kept⟩ := holds_iff_keeps.mp held
  rcases keeps_of_keeps_set kept with before | ⟨named, valued, -⟩
  · exact .inl (holds_iff_keeps.mpr ⟨limit, before⟩)
  · exact .inr ⟨named, valued⟩

/-- A removal that succeeds leaves nothing under its key, and nothing that was not there. -/
theorem holds_of_holds_delete (succeeds : (c.delete key).1 = .ok ())
    (held : (c.delete key).2.2.Holds other text) : other ≠ key ∧ c.Holds other text := by
  cases c with
  | none => exact held.elim
  | memory m =>
    obtain ⟨e, member, rfl, rfl⟩ := held
    obtain ⟨elsewhere, before⟩ := MemoryCache.mem_of_mem_delete member
    exact ⟨elsewhere, e, before, rfl, rfl⟩
  | redis r =>
    obtain ⟨before, elsewhere⟩ := Redis.mem_of_mem_delete held
    exact ⟨elsewhere succeeds, before⟩

/-- No command of a remote cache is set to fail. -/
def IsFaultless : Cache → Prop
  | .redis r => r.faults = []
  | _ => True

/-- A read sets nothing to fail. -/
theorem isFaultless_get (works : c.IsFaultless) : (c.get now key).2.2.IsFaultless := by
  cases c with
  | none => trivial
  | memory m =>
    simp only [get]
    split <;> trivial
  | redis r =>
    have same := r.get_snd key
    exact (congrArg Redis.faults same).trans works

/-- A write sets nothing to fail. -/
theorem isFaultless_set {lifetime : Nat} (works : c.IsFaultless) :
    (c.set now key value lifetime).2.2.IsFaultless := by
  cases c with
  | none => trivial
  | memory m => trivial
  | redis r => exact (r.set_faults key value lifetime).trans works

/-- A removal sets nothing to fail. -/
theorem isFaultless_delete (works : c.IsFaultless) : (c.delete key).2.2.IsFaultless := by
  cases c with
  | none => trivial
  | memory m => trivial
  | redis r => exact (r.delete_faults key).trans works

/-- A removal from a cache that works succeeds. -/
theorem delete_ok (works : c.IsFaultless) : (c.delete key).1 = .ok () := by
  cases c with
  | none => rfl
  | memory m => rfl
  | redis r =>
    have works : r.faults = [] := works
    simp [delete, Redis.delete, Redis.execute, Redis.perform, works]

end Cache

end StatusRegistry
