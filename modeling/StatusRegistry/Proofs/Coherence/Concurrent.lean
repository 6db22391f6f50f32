import StatusRegistry.Proofs.Coherence

/-!
# Requests served side by side

Where nothing fails and no request is being served any more, a read gives the current row, unless
the cache was left with a copy that some read had looked up before a change of the row. Two things
leave such a copy: the request that made the change was dropped before it removed what the cache
had, or the read put its copy there after the removal. Both happen, as two short runs show, and the
copy then stays until it expires or the row is changed again.
-/

namespace StatusRegistry

open Program (Leads)
open Registry (Service finding filling counting)
open Traffic

variable {r : Registry} {w : World} {acts : List Act} {t : Traffic} {id : Uuid}

/-- The cache gives out a copy of a status. -/
def World.Offers (w : World) (id : Uuid) (copy : Status) : Prop :=
  (w.cache.get w.now (cacheKey id)).1 = .ok copy.toJson.text

/-- What a read gives if it is not misled. -/
def currentRead (s : Store) (id : Uuid) : Except Failure Status :=
  match s.live id with
  | some row => .ok row
  | none => .error (Failure.statusNotFound id)

namespace World

/-- A count does not change what a program gives. -/
theorem run_counting {α : Type} (w : World) (m : Metric) (rest : Program α) :
    (w.run (counting m rest)).value = (w.run rest).value :=
  value_ask (c := .count m) ⟨_, rfl⟩ _

/-- Keeping a copy does not change what a read gives. -/
theorem run_filling (w : World) (r : Registry) (id : Uuid) (s : Status) :
    (w.run (r.filling id s)).value = some (.ok s) := by
  have given : w.Answers (.cacheSet (cacheKey id) s.toJson.text r.lifetime)
      (w.answerSet (cacheKey id) s.toJson.text r.lifetime).2.1
      (w.answerSet (cacheKey id) s.toJson.text r.lifetime).2.2 := ⟨_, rfl⟩
  refine (value_ask given _).trans ?_
  generalize (w.answerSet (cacheKey id) s.toJson.text r.lifetime).2 = outcome
  obtain ⟨e | ⟨⟩, after⟩ := outcome
  · exact run_counting _ _ _
  · rfl

/-- A lookup in a world without faults gives the current row. -/
theorem run_finding (sound : w.IsSound) (r : Registry) (id : Uuid) :
    (w.run (finding id (r.filling id))).value = some (currentRead w.store id) := by
  refine (value_ask (sound.answer_query (.findStatus id)) _).trans ?_
  have found : (w.store.execute (.findStatus id)).1 = .ok (w.store.live id) := rfl
  rw [found, currentRead]
  cases w.store.live id with
  | none => rfl
  | some s => exact run_filling _ r id s

/-- A read in a world without faults gives the cached copy if there is one that can be read. -/
theorem run_get_of_hit (sound : w.IsSound) (r : Registry) {text : String} {s : Status}
    (read : (w.cache.get w.now (cacheKey id)).1 = .ok text)
    (decoded : Status.decode (Utf8.octets text) = .ok s) :
    (w.run (r.serve (.get id))).value = some (.ok s) := by
  rw [Registry.serve_get, value_ask (sound.answer_get (cacheKey id)), read]
  simp only [decoded]
  exact run_counting _ _ _

/-- A read in a world without faults gives a copy that the cache gives out, or the current row. -/
theorem run_get (sound : w.IsSound) (r : Registry) (id : Uuid) :
    (∃ text s, (w.cache.get w.now (cacheKey id)).1 = .ok text ∧
      Status.decode (Utf8.octets text) = .ok s ∧
      (w.run (r.serve (.get id))).value = some (.ok s)) ∨
    (w.run (r.serve (.get id))).value = some (currentRead w.store id) := by
  have still : World.IsSound { w with cache := (w.cache.get w.now (cacheKey id)).2.2 } :=
    sound.answers_sound (sound.answer_get (cacheKey id))
  cases read : (w.cache.get w.now (cacheKey id)).1 with
  | error e =>
    right
    rw [Registry.serve_get, value_ask (sound.answer_get (cacheKey id)), read]
    exact (run_counting _ _ _).trans (run_finding still r id)
  | ok text =>
    cases decoded : Status.decode (Utf8.octets text) with
    | ok s =>
      exact .inl ⟨text, s, rfl, decoded, run_get_of_hit sound r read decoded⟩
    | error problem =>
      right
      rw [Registry.serve_get, value_ask (sound.answer_get (cacheKey id)), read]
      simp only [decoded]
      exact (run_counting _ _ _).trans (run_finding still r id)

end World

namespace Traffic

/-- Where nothing fails, nothing is ever set to fail. -/
theorem Runs.sound (run : Runs r .reliable (idle w) acts t) (sound : w.IsSound) :
    t.world.IsSound := by
  induction run with
  | refl => exact sound
  | step _ next inductionHypothesis =>
    cases next with
    | exchange _ answered => exact answered.1.answers_sound answered.2
    | drift waits => exact waits.sound
    | _ => exact inductionHypothesis

end Traffic

/-- Once no request is being served, a read gives the current row or says that there is none, unless
the cache still gives out a copy that some read had looked up before a change of the row, and the
request that made the change was dropped before its removal or had removed before the read filled
the cache. -/
theorem read_is_current (r : Registry) {w : World} (sound : w.IsSound)
    (empty : ∀ key text, ¬w.cache.Holds key text) {acts : List Act} {t : Traffic}
    (run : Runs r .reliable (idle w) acts t) (quiet : t.IsIdle)
    (dated : ∀ s ∈ t.world.store.statuses, s.IsDated) (id : Uuid)
    (completed : ∀ copy, t.world.Offers id copy → ¬Abandoned id copy acts)
    (ordered : ∀ copy, t.world.Offers id copy → ¬Overtaken id copy acts) :
    (t.world.run (r.serve (.get id))).value = some (currentRead t.world.store id) := by
  rcases World.run_get (run.sound sound) r id with ⟨text, s, read, decoded, given⟩ | given
  · obtain ⟨copy, rfl, current | ⟨reader, writer, outdated⟩⟩ := run.held_is_current
      Surroundings.reliable_keepsRows Surroundings.reliable_keepsCopies empty
      (Cache.holds_of_get read)
    · rw [Status.decode_text (dated _ (List.mem_of_find?_eq_some current))] at decoded
      cases decoded
      simp only [given, currentRead, current]
      rfl
    · rcases run.excuse_of_outdated quiet outdated with abandoned | overtaken
      · exact absurd abandoned (completed copy read)
      · exact absurd overtaken (ordered copy read)
  · exact given

namespace Sample

/-- An update changes the row, and before it removes the cached copy a read is still given it. -/
def meeting : List Act := [
  .arrive 1 (.update ⟨owner⟩ row.id revision),
  .exchange 1 ⟨.query (.findStatus row.id), .ok (some row)⟩,
  .exchange 1 ⟨.query (.updateStatus row.id owner revision), .ok (some revised)⟩,
  .arrive 2 (.get row.id),
  .exchange 2 ⟨.cacheGet (cacheKey row.id), .ok row.toJson.text⟩,
  .exchange 1 ⟨.cacheDelete (cacheKey row.id), .ok ()⟩,
  .exchange 2 ⟨.count .hits, ()⟩,
  .finish 1 (.update ⟨owner⟩ row.id revision) (.ok revised),
  .finish 2 (.get row.id) (.ok row)]

/-- The meeting is a run, and it leaves no copy in the cache. -/
theorem runs_meeting : Runs registry .reliable primed meeting cleared := by
  obtain ⟨next, serves, hit⟩ :=
    registry.serve_get_of_hit row.id (Status.decode_text row_isDated)
  have asks {t : Traffic} (served : t.requests 2 = some ⟨.get row.id, registry.serve (.get row.id)⟩) :
      t.requests 2 = some ⟨.get row.id, .call (.cacheGet (cacheKey row.id)) next⟩ := by
    rw [served, serves]
  have counts {t : Traffic} (told : t.requests 2 = some ⟨.get row.id, next (.ok row.toJson.text)⟩) :
      t.requests 2 = some ⟨.get row.id, .call (.count .hits) fun _ => .done (.ok row)⟩ := by
    rw [told, hit]
  refine .to_idle ⟨?traffic, ?run, ?quiet, ?final, ?arrived⟩ fun _ => rfl
  case run =>
    refine .cons .arrive ?_
    refine .cons (.exchange rfl ⟨isSound, _, rfl⟩) ?_
    refine .cons (.exchange rfl answers_revision) ?_
    refine .cons .arrive ?_
    refine .cons (.exchange (asks rfl) ⟨isSound, _, rfl⟩) ?_
    refine .cons (.exchange rfl ⟨isSound, _, rfl⟩) ?_
    refine .cons (.exchange (counts rfl) ⟨isSound, _, rfl⟩) ?_
    refine .cons (.finish rfl) ?_
    refine .cons (.finish rfl) ?_
    exact .refl
  case quiet => rintro (_ | _ | _ | k) <;> rfl
  case final => rfl
  case arrived => rfl

/-- The copy of the changed status is not out of date. -/
theorem not_outdated {copy : Status} {reader writer : Nat}
    (offered : refilled.world.Offers row.id copy) :
    ¬Outdated row.id copy reader writer (priming ++ meeting ++ refill) := by
  rintro ⟨e, past, lifetime, filled, future, changed, inOrder, -, -⟩
  obtain ⟨front, back, split, before, after⟩ := List.sublist_append_iff.mp inOrder
  cases front with
  | nil =>
    -- The last read changes nothing, so the change comes before it.
    have late : Act.exchange writer e ∈ refill := by
      rw [List.nil_append] at split
      exact after.subset (split ▸ List.mem_cons_of_mem _ List.mem_cons_self)
    simp only [refill, List.mem_cons, Act.exchange.injEq, reduceCtorEq, List.not_mem_nil, false_or,
      or_false] at late
    rcases late with ⟨-, rfl⟩ | ⟨-, rfl⟩ | ⟨-, rfl⟩ | ⟨-, rfl⟩ <;> cases changed
  | cons act front =>
    -- Whoever looked the row up before the change has seen its old content.
    obtain ⟨rfl, -⟩ := List.cons.inj split
    have early : Act.exchange reader ⟨.query (.findStatus row.id), .ok (some copy)⟩ ∈
        priming ++ meeting := before.subset List.mem_cons_self
    have old : copy = row := by
      simp only [priming, firstRead, meeting, List.mem_append, List.mem_cons, Act.exchange.injEq,
        reduceCtorEq, List.not_mem_nil, false_or, or_false] at early
      rcases early with (⟨-, ⟨⟩⟩ | ⟨-, ⟨⟩⟩ | ⟨-, ⟨⟩⟩ | ⟨-, ⟨⟩⟩) | ⟨-, ⟨⟩⟩ | ⟨-, ⟨⟩⟩ | ⟨-, ⟨⟩⟩ |
        ⟨-, ⟨⟩⟩ | ⟨-, ⟨⟩⟩ <;> rfl
    have same : revised.toJson.text = row.toJson.text := by
      rw [old] at offered
      exact Except.ok.inj offered
    have decoded := Status.decode_text revised_isDated
    rw [same, Status.decode_text row_isDated] at decoded
    exact absurd (Except.ok.inj decoded) (by decide)

end Sample

open Sample

/-- A read that came upon the old copy in the middle of an update was given it. Once the update has
ended, the next read fills the cache with the new content, and the one after it is given that. -/
theorem read_after_update : ∃ t,
    Runs registry .reliable (idle world) (priming ++ meeting ++ refill) t ∧ t.IsIdle ∧
    t.world.Offers row.id revised ∧
    (t.world.run (registry.serve (.get row.id))).value = some (.ok revised) := by
  have run := (runs_priming.trans runs_meeting).trans runs_refill
  have quiet : refilled.IsIdle := fun _ => rfl
  have offered : refilled.world.Offers row.id revised := rfl
  have dated : ∀ s ∈ refilled.world.store.statuses, s.IsDated := by
    intro s member
    rw [List.mem_singleton.mp member]
    exact revised_isDated
  have completed : ∀ copy, refilled.world.Offers row.id copy →
      ¬Abandoned row.id copy (priming ++ meeting ++ refill) := by
    rintro copy given ⟨_, _, outdated, -⟩
    exact not_outdated given outdated
  have ordered : ∀ copy, refilled.world.Offers row.id copy →
      ¬Overtaken row.id copy (priming ++ meeting ++ refill) := by
    rintro copy given ⟨_, _, outdated, -⟩
    exact not_outdated given outdated
  exact ⟨refilled, run, quiet, offered,
    read_is_current registry isSound holds_nothing run quiet dated row.id completed ordered⟩

/-- A read looks the status up, an update runs from its start to its end, and the read then fills
the cache. -/
def lateFill : List Act := [
  .arrive 0 (.get row.id),
  .exchange 0 ⟨.cacheGet (cacheKey row.id), .error (.miss (cacheKey row.id))⟩,
  .exchange 0 ⟨.count .misses, ()⟩,
  .exchange 0 ⟨.query (.findStatus row.id), .ok (some row)⟩,
  .arrive 1 (.update ⟨owner⟩ row.id revision),
  .exchange 1 ⟨.query (.findStatus row.id), .ok (some row)⟩,
  .exchange 1 ⟨.query (.updateStatus row.id owner revision), .ok (some revised)⟩,
  .exchange 1 ⟨.cacheDelete (cacheKey row.id), .ok ()⟩,
  .finish 1 (.update ⟨owner⟩ row.id revision) (.ok revised),
  .exchange 0 ⟨.cacheSet (cacheKey row.id) row.toJson.text 300, .ok ()⟩,
  .finish 0 (.get row.id) (.ok row)]

/-- A read fills the cache, and a deletion is dropped between its statement and the removal of the
cached copy. -/
def droppedDeletion : List Act := [
  .arrive 0 (.get row.id),
  .exchange 0 ⟨.cacheGet (cacheKey row.id), .error (.miss (cacheKey row.id))⟩,
  .exchange 0 ⟨.count .misses, ()⟩,
  .exchange 0 ⟨.query (.findStatus row.id), .ok (some row)⟩,
  .exchange 0 ⟨.cacheSet (cacheKey row.id) row.toJson.text 300, .ok ()⟩,
  .finish 0 (.get row.id) (.ok row),
  .arrive 1 (.delete ⟨owner⟩ row.id),
  .exchange 1 ⟨.query (.findStatus row.id), .ok (some row)⟩,
  .exchange 1 ⟨.query (.deleteStatus row.id), .ok (1 : Nat)⟩,
  .drop 1]

/-- A world whose cache has a copy of the status gives out that copy. -/
theorem run_stale (s : Store) :
    (World.run ⟨s, [], .free, filledCache, [], 1000000000⟩
      (registry.serve (.get row.id))).value = some (.ok row) := by
  refine World.run_get_of_hit isSound registry ?_ (Status.decode_text row_isDated)
  simp [Cache.get, MemoryCache.get, MemoryCache.find?, MemoryCache.CacheEntry.isLive]

/-- The late fill is a run, and it leaves the old content in the cache. -/
theorem runs_lateFill : ∃ t, Runs registry .reliable (idle world) lateFill t ∧ t.IsIdle ∧
    t.world = ⟨{ store with statuses := [revised] }.tick, [], .free, filledCache, [],
      1000000000⟩ := by
  refine ⟨?traffic, ?run, ?quiet, ?final⟩
  case run =>
    refine .cons .arrive ?_
    refine .cons (.exchange rfl ⟨isSound, _, rfl⟩) ?_
    refine .cons (.exchange rfl ⟨isSound, _, rfl⟩) ?_
    refine .cons (.exchange rfl ⟨isSound, _, rfl⟩) ?_
    refine .cons .arrive ?_
    refine .cons (.exchange rfl ⟨isSound, _, rfl⟩) ?_
    refine .cons (.exchange rfl answers_revision) ?_
    refine .cons (.exchange rfl ⟨isSound, _, rfl⟩) ?_
    refine .cons (.finish rfl) ?_
    refine .cons (.exchange rfl ⟨isSound, _, rfl⟩) ?_
    refine .cons (.finish rfl) ?_
    exact .refl
  case quiet => rintro (_ | _ | k) <;> rfl
  case final => rfl

/-- The dropped deletion is a run, and it leaves the deleted status in the cache. -/
theorem runs_droppedDeletion :
    ∃ t, Runs registry .reliable (idle world) droppedDeletion t ∧ t.IsIdle ∧
      t.world = ⟨{ store with statuses := [Store.deleted store.now row] }.tick, [], .free,
        filledCache, [], 1000000000⟩ := by
  refine ⟨?traffic, ?run, ?quiet, ?final⟩
  case run =>
    refine .cons .arrive ?_
    refine .cons (.exchange rfl ⟨isSound, _, rfl⟩) ?_
    refine .cons (.exchange rfl ⟨isSound, _, rfl⟩) ?_
    refine .cons (.exchange rfl ⟨isSound, _, rfl⟩) ?_
    refine .cons (.exchange rfl ⟨isSound, _, rfl⟩) ?_
    refine .cons (.finish rfl) ?_
    refine .cons .arrive ?_
    refine .cons (.exchange rfl ⟨isSound, _, rfl⟩) ?_
    refine .cons (.exchange rfl ⟨isSound, _, rfl⟩) ?_
    refine .cons (.drop rfl) ?_
    exact .refl
  case quiet => rintro (_ | _ | k) <;> rfl
  case final => rfl

/-- A read gives a status as it was before a change that has long taken effect: after a late fill it
gives the old content of an updated status, and after a dropped deletion it gives a status that is
deleted. In both runs nothing fails, the cache is empty at the start and no request is being served
any more. -/
theorem read_may_be_stale :
    world.IsSound ∧ (∀ key text, ¬world.cache.Holds key text) ∧
    (∃ t, Runs registry .reliable (idle world) lateFill t ∧ t.IsIdle ∧
      t.world.store.live row.id = some revised ∧ row ≠ revised ∧
      (t.world.run (registry.serve (.get row.id))).value = some (.ok row)) ∧
    ∃ t, Runs registry .reliable (idle world) droppedDeletion t ∧ t.IsIdle ∧
      t.world.store.live row.id = none ∧
      (t.world.run (registry.serve (.get row.id))).value = some (.ok row) := by
  refine ⟨isSound, holds_nothing, ?_, ?_⟩
  · obtain ⟨t, run, quiet, final⟩ := runs_lateFill
    refine ⟨t, run, quiet, ?_, by decide, ?_⟩
    · rw [final]
      rfl
    · rw [final]
      exact run_stale _
  · obtain ⟨t, run, quiet, final⟩ := runs_droppedDeletion
    refine ⟨t, run, quiet, ?_, ?_⟩
    · rw [final]
      rfl
    · rw [final]
      exact run_stale _

end StatusRegistry
