import StatusRegistry.Proofs.Coherence
import StatusRegistry.Proofs.Course
import StatusRegistry.Proofs.Faults

/-!
# What a read may give when anything may fail

A removal that fails, or that never comes because its request was dropped, leaves an old copy in the
cache. What still holds is this. A copy was made of one row as a lookup found it, under the key of
that row, and the cache in memory gives it out for no longer than the lifetime that it was written
with. So a read gives a version that the row once had, and the age of what it gives is bounded.
-/

namespace StatusRegistry

open Program (Leads)
open Registry (ReadEnds IsUseless lookedUp)
open Traffic

variable {r : Registry} {w : World} {steps front past : List (Traffic × Act)}
  {t before reading : Traffic} {id : Uuid} {key text : String} {k : Nat} {s : Status}

/-- A copy was put into the cache for the lifetime of the registry, and the cache has held it ever
since. If it is the cache in memory, the lifetime is not over. -/
def IsFresh (r : Registry) (past : List (Traffic × Act)) (reading : Traffic) (id : Uuid)
    (text : String) : Prop :=
  ∃ front writing filler filled since,
    past = front ++
      (writing, .exchange filler ⟨.cacheSet (cacheKey id) text r.lifetime, filled⟩) :: since ∧
    (∀ step ∈ since, step.1.world.cache.Holds (cacheKey id) text) ∧
    (reading.world.cache.backend = .memory →
      reading.world.now < writing.world.now + MemoryCache.second * r.lifetime)

namespace Traffic

/-- A request that gets an answer has been led to its call by the answers before. -/
theorem Trail.exchange_leads {around : Surroundings} {back : List (Traffic × Act)} {e : Exchange}
    (trail : Trail r around (idle w) (front ++ (before, .exchange k e) :: back) t) :
    ∃ operation next, Leads (r.serve operation) (transcript k (front.map Prod.snd))
      (.call e.call next) := by
  have run := trail.runs
  rw [List.map_append] at run
  obtain ⟨operation, next, -, leads⟩ := run.exchange_leads
  exact ⟨operation, next, leads⟩

/-- Whatever a cache keeps was written to it under its key, and has been kept ever since. -/
theorem Trail.kept_by_fill {limit : Option Nat} (empty : ∀ key text, ¬w.cache.Holds key text)
    (trail : Trail r .faulty (idle w) steps t) (kept : t.world.cache.Keeps key text limit) :
    ∃ front writing filler lifetime filled since,
      steps = front ++
        (writing, .exchange filler ⟨.cacheSet key text lifetime, filled⟩) :: since ∧
      (∀ step ∈ since, step.1.world.cache.Keeps key text limit) ∧
      ∀ time, limit = some time → time = writing.world.now + MemoryCache.second * lifetime := by
  have first : ¬(idle w).world.cache.Keeps key text limit :=
    fun kept => empty key text (Cache.holds_iff_keeps.mpr ⟨limit, kept⟩)
  obtain ⟨front, writing, act, middle, since, rfl, brings, new, held, ever⟩ :=
    trail.brought_about (P := fun t => t.world.cache.Keeps key text limit) first kept
  cases brings with
  | @exchange filler _ _ _ filled _ _ answered =>
    rcases Surroundings.faulty_keeps answered held with already | ⟨lifetime, rfl, ends⟩
    · exact absurd already new
    · exact ⟨front, writing, filler, lifetime, filled, since, rfl, ever, ends⟩
  | drift lapses => exact absurd (lapses.forgets _ _ _ held) new
  | _ => exact absurd held new

/-- What a read is given from the cache is a row that a lookup had found, and it is fresh. -/
theorem Trail.copy (empty : ∀ key text, ¬w.cache.Holds key text) {later : List (Traffic × Act)}
    (trail : Trail r .faulty (idle w)
      (past ++ (reading, .exchange k ⟨.cacheGet (cacheKey id), .ok text⟩) :: later) t) :
    IsFresh r past reading id text ∧ ∃ row finding finder, text = row.toJson.text ∧
      (finding, .exchange finder ⟨.query (.findStatus id), .ok (some row)⟩) ∈ past := by
  obtain ⟨prior, _, step⟩ := trail.cut
  cases step with
  | exchange _ answered =>
    obtain ⟨limit, kept, live⟩ := Surroundings.faulty_get answered
    obtain ⟨front, writing, filler, lifetime, filled, since, rfl, ever, ends⟩ :=
      prior.kept_by_fill empty kept
    obtain ⟨_, _, leads⟩ := prior.exchange_leads
    obtain rfl := Registry.lifetime_of_fills leads
    obtain ⟨_, row, -, sameKey, rfl, found⟩ := (r.conduct leads).fills _ _ _ _ rfl
    obtain rfl := cacheKey_injective sameKey
    constructor
    · refine ⟨front, writing, filler, filled, since, rfl, ?_, ?_⟩
      · exact fun step member => Cache.holds_iff_keeps.mpr ⟨limit, ever step member⟩
      · intro memory
        obtain ⟨time, limited, early⟩ := live memory
        exact ends time limited ▸ early
    · obtain ⟨⟨finding, _⟩, member, rfl⟩ := List.mem_map.mp (mem_transcript.mp found)
      exact ⟨row, finding, filler, rfl, List.mem_append_left _ member⟩

end Traffic

/-- Whatever fails, whoever is dropped and however requests take turns, a read of a cache that was
empty at the start gives a version that the row with its identifier had while it was live. A copy
that the read was given from the cache is fresh. -/
theorem reads_are_versions (r : Registry) {w : World}
    (empty : ∀ key text, ¬w.cache.Holds key text) {steps : List (Traffic × Act)}
    {before t : Traffic} {k : Nat} {id : Uuid} {s : Status}
    (trail : Trail r .faulty (idle w) (steps ++ [(before, .finish k (.get id) (.ok s))]) t)
    (dated : ∀ moment j id row,
      (moment, .exchange j ⟨.query (.findStatus id), .ok (some row)⟩) ∈ steps → row.IsDated) :
    s.id = id ∧ s.deletedAt = none ∧
    (∃ moment act, (moment, act) ∈ steps ∧ moment.world.store.live id = some s) ∧
    ∀ past reading text later,
      steps = past ++ (reading, .exchange k ⟨.cacheGet (cacheKey id), .ok text⟩) :: later →
      IsFresh r past reading id text := by
  have found : ∃ finding finder,
      (finding, .exchange finder ⟨.query (.findStatus id), .ok (some s)⟩) ∈ steps := by
    have run := trail.runs
    rw [List.map_append] at run
    obtain ⟨-, leads⟩ := run.finish_leads
    cases r.readEnds leads with
    | @hit text _ read decoded same =>
      cases same
      obtain ⟨⟨reading, _⟩, member, rfl⟩ := List.mem_map.mp (mem_transcript.mp read)
      obtain ⟨past, later, rfl⟩ := List.append_of_mem member
      rw [List.append_assoc, List.cons_append] at trail
      obtain ⟨-, row, finding, finder, rfl, looked⟩ := trail.copy empty
      have dates := dated finding finder id row (List.mem_append_left _ looked)
      rw [Status.decode_text dates] at decoded
      cases decoded
      exact ⟨finding, finder, List.mem_append_left _ looked⟩
    | @lookup _ answer _ _ asked same =>
      obtain ⟨⟨finding, _⟩, member, rfl⟩ := List.mem_map.mp (mem_transcript.mp asked)
      rcases answer with e | (_ | row)
      · cases same
      · cases same
      · cases same
        exact ⟨finding, k, member⟩
  obtain ⟨finding, finder, looked⟩ := found
  obtain ⟨_, lookup⟩ := trail.step_of_mem (List.mem_append_left _ looked)
  have live := lookup.found_live Surroundings.faulty_keepsRows
  obtain ⟨named, alive⟩ := Store.isTarget_iff.mp (List.find?_some live)
  refine ⟨named, Option.isNone_iff_eq_none.mp alive, ⟨finding, _, looked, live⟩, ?_⟩
  rintro past reading text later rfl
  rw [List.append_assoc, List.cons_append] at trail
  exact (trail.copy empty).1

namespace Sample

/-- A read fills the cache, an update cannot remove the copy, and another read is given the copy. -/
def secondRead : List Act := firstRead ++ [
  .finish 0 (.get row.id) (.ok row),
  .arrive 1 (.update ⟨owner⟩ row.id revision),
  .exchange 1 ⟨.query (.findStatus row.id), .ok (some row)⟩,
  .exchange 1 ⟨.query (.updateStatus row.id owner revision), .ok (some revised)⟩,
  .exchange 1 ⟨.cacheDelete (cacheKey row.id), .error (.connection "unreachable")⟩,
  .exchange 1 ⟨.count .errors, ()⟩,
  .finish 1 (.update ⟨owner⟩ row.id revision) (.ok revised),
  .arrive 2 (.get row.id),
  .exchange 2 ⟨.cacheGet (cacheKey row.id), .ok row.toJson.text⟩,
  .exchange 2 ⟨.count .hits, ()⟩]

/-- A cache that has a copy of the status gives it out before the lifetime is over. -/
theorem get_filledCache {now : Nat} (early : now < 301000000000) :
    filledCache.get now (cacheKey row.id) = (.ok row.toJson.text, [], filledCache) := by
  simp [filledCache, Cache.get, MemoryCache.get, MemoryCache.find?, MemoryCache.CacheEntry.isLive,
    MemoryCache.without, early]

/-- A read that is given a copy that can be read counts it and ends with it. -/
theorem runs_hit {around : Surroundings} {t : Traffic} {after : World}
    (waiting : t.requests k = some ⟨.get id, r.serve (.get id)⟩)
    (answered : around.answers t.world (.cacheGet (cacheKey id)) (.ok text) after)
    (decoded : Status.decode (Utf8.octets text) = .ok s)
    (counted : around.answers after (.count .hits) () after) :
    ∃ last, Runs r around t [
      .exchange k ⟨.cacheGet (cacheKey id), .ok text⟩,
      .exchange k ⟨.count .hits, ()⟩,
      .finish k (.get id) (.ok s)] last := by
  rw [Registry.serve_get] at waiting
  refine ⟨?last, ?run⟩
  case run =>
    refine .cons (.exchange waiting answered) ?_
    simp only [decoded]
    refine .cons (.exchange (enter_requests_self t k _) counted) ?_
    refine .cons (.finish (enter_requests_self _ k _)) ?_
    exact .refl

/-- The second read is a run. -/
theorem runs_secondRead : ∃ t, Runs registry .faulty (idle world)
    (secondRead ++ [.finish 2 (.get row.id) (.ok row)]) t := by
  have given : ∀ (store : Store) (now : Nat), now < 301000000000 →
      Surroundings.faulty.answers ⟨store, [], .free, filledCache, [], now⟩
        (.cacheGet (cacheKey row.id)) (.ok row.toJson.text)
        ⟨store, [], .free, filledCache, [], now⟩ := by
    intro store now early
    have sound : World.IsSound ⟨store, [], .free, filledCache, [], now⟩ := isSound
    have answered := sound.answer_get (cacheKey row.id)
    rw [get_filledCache early] at answered
    exact .inl answered
  have updated : ∃ t, Runs registry .faulty (idle world) (secondRead.take 13) t ∧
      t.world = ⟨{ store with statuses := [revised] }.tick, [], .free, filledCache, [],
        1000000000⟩ ∧ t.requests 2 = some ⟨.get row.id, registry.serve (.get row.id)⟩ := by
    refine ⟨?traffic, ?run, ?final, ?waiting⟩
    case run =>
      refine .cons .arrive ?_
      refine .cons (.exchange rfl (.inl ⟨_, rfl⟩)) ?_
      refine .cons (.exchange rfl (.inl ⟨_, rfl⟩)) ?_
      refine .cons (.exchange rfl (.inl ⟨_, rfl⟩)) ?_
      refine .cons (.exchange rfl (.inl ⟨_, rfl⟩)) ?_
      refine .cons (.finish rfl) ?_
      refine .cons .arrive ?_
      refine .cons (.exchange rfl (.inl ⟨_, rfl⟩)) ?_
      refine .cons (.exchange rfl (.inl answers_revision.2)) ?_
      refine .cons (.exchange rfl (.inr (.inl rfl))) ?_
      refine .cons (.exchange rfl (.inl ⟨_, rfl⟩)) ?_
      refine .cons (.finish rfl) ?_
      refine .cons .arrive ?_
      exact .refl
    case final => rfl
    case waiting => rfl
  obtain ⟨t, first, final, waiting⟩ := updated
  obtain ⟨last, second⟩ := runs_hit waiting (final ▸ given _ _ (by decide))
    (Status.decode_text row_isDated) (Or.inl ⟨_, rfl⟩)
  exact ⟨last, first.trans second⟩

end Sample

open Sample in
/-- A read after an update whose removal failed gives a version that the status had, from a copy
that is fresh. -/
theorem version_after_failed_removal : ∃ steps before t,
    Trail registry .faulty (idle world)
      (steps ++ [(before, .finish 2 (.get row.id) (.ok row))]) t ∧
    steps.map Prod.snd = secondRead ∧
    (∃ moment act, (moment, act) ∈ steps ∧ moment.world.store.live row.id = some row) ∧
    ∃ past reading later,
      steps = past ++
        (reading, .exchange 2 ⟨.cacheGet (cacheKey row.id), .ok row.toJson.text⟩) :: later ∧
      IsFresh registry past reading row.id row.toJson.text := by
  obtain ⟨t, run⟩ := runs_secondRead
  obtain ⟨_, acts, trail⟩ := run.trail
  obtain ⟨steps, last, rfl, given, ended⟩ := List.map_eq_append_iff.mp acts
  obtain ⟨⟨before, _⟩, rfl, rfl⟩ := List.map_eq_singleton_iff.mp ended
  have made : ∀ {moment act}, (moment, act) ∈ steps → act ∈ secondRead := by
    intro moment act member
    rw [← given]
    exact List.mem_map_of_mem member
  have dated : ∀ moment j id found,
      (moment, .exchange j ⟨.query (.findStatus id), .ok (some found)⟩) ∈ steps →
      found.IsDated := by
    intro moment j id found member
    have looked := made member
    simp only [secondRead, firstRead, List.mem_append, List.mem_cons, Act.exchange.injEq,
      reduceCtorEq, false_or, or_false, List.not_mem_nil] at looked
    rcases looked with (⟨-, ⟨⟩⟩ | ⟨-, ⟨⟩⟩ | ⟨-, ⟨⟩⟩ | ⟨-, ⟨⟩⟩) | ⟨-, ⟨⟩⟩ | ⟨-, ⟨⟩⟩ | ⟨-, ⟨⟩⟩ |
      ⟨-, ⟨⟩⟩ | ⟨-, ⟨⟩⟩ | ⟨-, ⟨⟩⟩
    all_goals exact row_isDated
  obtain ⟨-, -, version, fresh⟩ := reads_are_versions registry holds_nothing trail dated
  have ends : steps.map Prod.snd = secondRead.take 13 ++
      .exchange 2 ⟨.cacheGet (cacheKey row.id), .ok row.toJson.text⟩ ::
        [.exchange 2 ⟨.count .hits, ()⟩] := given
  obtain ⟨past, _, rfl, -, second⟩ := List.map_eq_append_iff.mp ends
  obtain ⟨⟨reading, _⟩, later, rfl, rfl, -⟩ := List.map_eq_cons_iff.mp second
  exact ⟨_, before, t, trail, given, version, past, reading, later, rfl, fresh _ _ _ _ rfl⟩

end StatusRegistry
