import StatusRegistry.Proofs.Surroundings

/-!
# Surroundings that fail

Here any call may fail at any time, and a failed call of the cache may have had its effect all the
same. The world may itself be set to fail. What is left then is little: rows still change only
through statements, a failed statement changes nothing, and whatever a cache keeps was written to it
under that key, with the time that the lifetime of the writing gave it.
-/

namespace StatusRegistry

namespace World

variable {w after : World} {c : Call} {answer : c.Answer}

/-- A call miscarries. A statement that does has no effect; a call of the cache may have had its
effect. -/
def Miscarries (w : World) : (c : Call) → c.Answer → World → Prop
  | .query _, .error _, after => after = w
  | .cacheGet key, .error _, after =>
    after = w ∨ after = { w with cache := w.cacheAfter (.cacheGet key) }
  | .cacheSet key text lifetime, .error _, after =>
    after = w ∨ after = { w with cache := w.cacheAfter (.cacheSet key text lifetime) }
  | .cacheDelete key, .error _, after =>
    after = w ∨ after = { w with cache := w.cacheAfter (.cacheDelete key) }
  | _, _, _ => False

/-- Time passes in a world that may be set to fail: clocks and faults change, the cache may forget,
and the statuses stay. -/
structure Lapses (w after : World) : Prop where
  statuses : after.store.statuses = w.store.statuses
  forgets : ∀ key text limit, after.cache.Keeps key text limit → w.cache.Keeps key text limit

/-- A statement that miscarries fails without effect. -/
theorem Miscarries.of_query {q : Statement} {answer : Except StoreError q.Result}
    (lost : w.Miscarries (.query q) answer after) : (∃ e, answer = .error e) ∧ after = w := by
  cases answer with
  | ok result => exact lost.elim
  | error e => exact ⟨⟨e, rfl⟩, lost⟩

/-- A call that is no statement and miscarries touches at most the cache. -/
theorem Miscarries.of_other (lost : w.Miscarries c answer after) (other : isStatement c = false) :
    after = w ∨ after = { w with cache := w.cacheAfter c } := by
  unfold Miscarries at lost
  split at lost
  · cases other
  · exact lost
  · exact lost
  · exact lost
  · exact lost.elim

/-- What a cache keeps after a call it kept before, or the call has written it with its time. -/
theorem keeps_of_keeps_cacheAfter {key text : String} {limit : Option Nat}
    (kept : (w.cacheAfter c).Keeps key text limit) :
    w.cache.Keeps key text limit ∨ ∃ lifetime, c = .cacheSet key text lifetime ∧
      ∀ time, limit = some time → time = w.now + MemoryCache.second * lifetime := by
  cases c with
  | cacheGet other => exact .inl (Cache.keeps_of_keeps_get kept)
  | cacheSet other value lifetime =>
    rcases Cache.keeps_of_keeps_set kept with before | ⟨rfl, rfl, ends⟩
    · exact .inl before
    · exact .inr ⟨lifetime, rfl, ends⟩
  | cacheDelete other => exact .inl (Cache.keeps_of_keeps_delete kept)
  | _ => exact .inl kept

end World

/-- Any call may miscarry, and the world may be set to fail. -/
def Surroundings.faulty : Surroundings where
  answers w c answer after := w.Answers c answer after ∨ w.Miscarries c answer after
  drifts := World.Lapses

namespace Surroundings

open World

variable {w after : World} {c : Call} {answer : c.Answer}

/-- A statement fails without effect, or does what the store does. -/
theorem faulty_query {q : Statement} {answer : Except StoreError q.Result}
    (answered : faulty.answers w (.query q) answer after) :
    (∃ e, answer = .error e) ∧ after = w ∨
      answer = (w.store.execute q).1 ∧ after = { w with store := (w.store.execute q).2 } := by
  rcases answered with given | lost
  · exact given.of_query
  · exact .inl lost.of_query

/-- A call that is no statement touches at most the cache. -/
theorem faulty_other (answered : faulty.answers w c answer after) (other : isStatement c = false) :
    after = w ∨ after = { w with cache := w.cacheAfter c } := by
  rcases answered with given | lost
  · exact given.of_other other
  · exact lost.of_other other

/-- Failing calls leave the rows alone. -/
theorem faulty_keepsRows : faulty.KeepsRows where
  statements answered := by
    rcases faulty_query answered with ⟨failed, rfl⟩ | ⟨rfl, rfl⟩
    · exact .inl ⟨failed, rfl⟩
    · exact .inr ⟨rfl, rfl⟩
  others answered other := by
    rcases faulty_other answered other with rfl | rfl <;> rfl
  drifts lapses := lapses.statuses

/-- What is given out of a cache was kept there, and its time had not come if it was the cache in
memory. -/
theorem faulty_get {key text : String}
    (answered : faulty.answers w (.cacheGet key) (.ok text) after) :
    ∃ limit, w.cache.Keeps key text limit ∧
      (w.cache.backend = .memory → ∃ time, limit = some time ∧ w.now < time) := by
  rcases answered with given | lost
  · exact Cache.keeps_of_get given.of_get
  · exact lost.elim

/-- What is kept after a call was kept before, or the call has written it with its time. -/
theorem faulty_keeps {key text : String} {limit : Option Nat}
    (answered : faulty.answers w c answer after) (kept : after.cache.Keeps key text limit) :
    w.cache.Keeps key text limit ∨ ∃ lifetime, c = .cacheSet key text lifetime ∧
      ∀ time, limit = some time → time = w.now + MemoryCache.second * lifetime := by
  cases other : isStatement c with
  | true =>
    cases c with
    | query q => rcases faulty_query answered with ⟨-, rfl⟩ | ⟨-, rfl⟩ <;> exact .inl kept
    | _ => cases other
  | false =>
    rcases faulty_other answered other with rfl | rfl
    · exact .inl kept
    · exact keeps_of_keeps_cacheAfter kept

end Surroundings

end StatusRegistry
