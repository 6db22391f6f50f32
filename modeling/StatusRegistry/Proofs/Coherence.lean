import StatusRegistry.Proofs.Status
import StatusRegistry.Proofs.Surroundings

/-!
# Coherence of cached copies

A copy enters the cache only with the row that a read found, and it stays until some request removes
it. So a copy that is not the current row was looked up before a change of the row, and nothing has
been removed since the read put it into the cache. The request that made the change has not come to
its own removal, or it came to it before the read put the copy there. Requests served one at a time
give neither excuse. Requests side by side can, and nothing in the registry prevents it.
-/

namespace StatusRegistry

open Program (Leads)
open Registry (ReadEnds IsUseless lookedUp)
open Traffic

/-- A read looked a row up, a request changed the row, and the copy that the read put into the cache
has not been removed since. -/
def Outdated (id : Uuid) (copy : Status) (reader writer : Nat) (acts : List Act) : Prop :=
  ∃ e past lifetime filled future, e.changes id ∧
    [.exchange reader ⟨.query (.findStatus id), .ok (some copy)⟩, .exchange writer e].Sublist acts ∧
    acts = past ++ .exchange reader ⟨.cacheSet (cacheKey id) copy.toJson.text lifetime, filled⟩ ::
      future ∧
    ∀ j evicted, .exchange j ⟨.cacheDelete (cacheKey id), evicted⟩ ∉ future

/-- A copy is out of date, and the request that changed its row was dropped before it removed
anything. -/
def Abandoned (id : Uuid) (copy : Status) (acts : List Act) : Prop :=
  ∃ reader writer, Outdated id copy reader writer acts ∧ .drop writer ∈ acts ∧
    ∀ evicted, .exchange writer ⟨.cacheDelete (cacheKey id), evicted⟩ ∉ acts

/-- A copy is out of date, and the request that changed its row had already removed what was there
when the read put it into the cache. -/
def Overtaken (id : Uuid) (copy : Status) (acts : List Act) : Prop :=
  ∃ reader writer, Outdated id copy reader writer acts ∧
    ∃ evicted, .exchange writer ⟨.cacheDelete (cacheKey id), evicted⟩ ∈ acts

variable {r : Registry} {around : Surroundings} {start t after : Traffic} {w : World}
  {acts past future : List Act} {id : Uuid} {copy : Status} {key text : String}

/-- A read that is given a copy that can be read counts it and ends with it. -/
theorem Registry.serve_get_of_hit (r : Registry) (id : Uuid)
    (decoded : Status.decode (Utf8.octets text) = .ok copy) :
    ∃ next, r.serve (.get id) = .call (.cacheGet (cacheKey id)) next ∧
      next (.ok text) = .call (.count .hits) fun _ => .done (.ok copy) := by
  refine ⟨_, r.serve_get id, ?_⟩
  simp only [decoded]
  rfl

namespace Traffic

/-- Whatever the cache holds was put there after the last removal under its key. -/
theorem Runs.held_by_fill (copies : around.KeepsCopies)
    (empty : ∀ key text, ¬start.world.cache.Holds key text) (run : Runs r around start acts t)
    (held : t.world.cache.Holds key text) :
    ∃ past k lifetime answer future,
      acts = past ++ .exchange k ⟨.cacheSet key text lifetime, answer⟩ :: future ∧
      ∀ j answer, .exchange j ⟨.cacheDelete key, answer⟩ ∉ future := by
  induction run with
  | refl => exact absurd held (empty key text)
  | @step acts t _ act prior next inductionHypothesis =>
    have carry : t.world.cache.Holds key text →
        (∀ j answer, act ≠ .exchange j ⟨.cacheDelete key, answer⟩) →
        ∃ past k lifetime answer future, acts ++ [act] =
          past ++ .exchange k ⟨.cacheSet key text lifetime, answer⟩ :: future ∧
          ∀ j answer, .exchange j ⟨.cacheDelete key, answer⟩ ∉ future := by
      intro before other
      obtain ⟨past, k, lifetime, answer, future, rfl, kept⟩ := inductionHypothesis before
      refine ⟨past, k, lifetime, answer, future ++ [act], by simp, ?_⟩
      intro j answer member
      rcases List.mem_append.mp member with earlier | now
      · exact kept j answer earlier
      · exact other j answer (List.mem_singleton.mp now).symm
    cases next with
    | @exchange k _ c _ answer _ _ answered =>
      rcases copies.writes answered held with before | ⟨lifetime, rfl⟩
      · refine carry before ?_
        rintro j evicted ⟨⟩
        exact copies.removes answered text held
      · exact ⟨acts, k, lifetime, answer, [], rfl, fun _ _ => List.not_mem_nil⟩
    | drift drifted => exact carry (copies.forgets drifted held) (by rintro _ _ ⟨⟩)
    | arrive => exact carry held (by rintro _ _ ⟨⟩)
    | finish _ => exact carry held (by rintro _ _ ⟨⟩)
    | drop _ => exact carry held (by rintro _ _ ⟨⟩)

/-- A live row stays current until a request changes it. -/
theorem Runs.live_or_changes (rows : around.KeepsRows) (run : Runs r around t acts after)
    {s : Status} (found : t.world.store.live id = some s) :
    after.world.store.live id = some s ∨ ∃ u e, .exchange u e ∈ acts ∧ e.changes id := by
  induction run with
  | refl => exact .inl found
  | @step acts t' _ act prior next inductionHypothesis =>
    rcases inductionHypothesis with current | ⟨u, e, member, changed⟩
    · have keep : ∀ {world : World}, world.store.statuses = t'.world.store.statuses →
          world.store.live id = some s := by
        intro world same
        unfold Store.live at current ⊢
        rw [same]
        exact current
      cases next with
      | @exchange k _ c _ answer world _ answered =>
        cases c with
        | query q =>
          rcases rows.statements answered with ⟨-, same⟩ | ⟨rfl, same⟩
          · exact .inl (keep same)
          · rcases Store.live_execute current q with still | changed
            · left
              show world.store.live id = some s
              unfold Store.live at still ⊢
              rw [same]
              exact still
            · exact .inr ⟨k, _, by simp, changed⟩
        | _ => exact .inl (keep (rows.others answered rfl))
      | drift drifted => exact .inl (keep (rows.drifts drifted))
      | _ => exact .inl current
    · exact .inr ⟨u, e, List.mem_append_left _ member, changed⟩

/-- What a lookup finds is the current row. -/
theorem live_of_lookup (rows : around.KeepsRows) {w after : World}
    {answer : Except StoreError (Option Status)}
    (answered : around.answers w (.query (.findStatus id)) answer after) :
    after.store.statuses = w.store.statuses ∧
      ((∃ e, answer = .error e) ∨ answer = .ok (w.store.live id)) := by
  rcases rows.statements answered with ⟨failed, same⟩ | ⟨rfl, same⟩
  · exact ⟨same, .inl failed⟩
  · exact ⟨same, .inr rfl⟩

/-- A row that a lookup found was then the live row of its identifier. -/
theorem Step.found_live (rows : around.KeepsRows) {k : Nat} {s : Status}
    (next : Step r around t (.exchange k ⟨.query (.findStatus id), .ok (some s)⟩) after) :
    t.world.store.live id = some s := by
  cases next with
  | exchange _ answered =>
    obtain ⟨-, ⟨_, failed⟩ | found⟩ := live_of_lookup rows answered
    · cases failed
    · exact (Except.ok.inj found).symm

/-- Statements that change no row leave the rows as they are. -/
theorem Runs.statuses_eq (rows : around.KeepsRows) (run : Runs r around t acts after)
    (reads : ∀ u q answer, .exchange u ⟨.query q, answer⟩ ∈ acts →
      ∀ s : Store, s.rowsAfter q = s.statuses) :
    after.world.store.statuses = t.world.store.statuses := by
  induction run with
  | refl => rfl
  | @step acts t' _ act prior next inductionHypothesis =>
    have before := inductionHypothesis fun u q answer member =>
      reads u q answer (List.mem_append_left _ member)
    refine Eq.trans ?_ before
    cases next with
    | @exchange k _ c _ answer world _ answered =>
      cases c with
      | query q =>
        rcases rows.statements answered with ⟨-, same⟩ | ⟨-, same⟩
        · exact same
        · rw [same]
          obtain ⟨e, refused⟩ | performed := t'.world.store.execute_cases q
          · rw [refused]
          · rw [performed, Store.perform_statuses]
            exact reads k q answer (by simp) _
      | _ => exact rows.others answered rfl
    | drift drifted => exact rows.drifts drifted
    | _ => rfl

/-- A change comes before the removal that the same request makes for it. -/
theorem Runs.not_evicts_before {u : Nat} {e : Exchange} {evicted : Except CacheError Unit}
    (run : Runs r around (idle w) (past ++ .exchange u e :: future) t) (changed : e.changes id) :
    .exchange u ⟨.cacheDelete key, evicted⟩ ∉ past := by
  intro member
  obtain ⟨operation, next, -, leads⟩ := run.exchange_leads
  have onward : Leads (r.serve operation) (transcript u past ++ e :: []) (next e.answer) :=
    leads.snoc e.answer
  exact r.not_evicts_before changed onward (mem_transcript.mpr member)

/-- A copy is the current row, or it is out of date. -/
theorem Runs.held_is_current (rows : around.KeepsRows) (copies : around.KeepsCopies)
    (empty : ∀ key text, ¬w.cache.Holds key text) (run : Runs r around (idle w) acts t)
    (held : t.world.cache.Holds (cacheKey id) text) :
    ∃ s, text = s.toJson.text ∧
      (t.world.store.live id = some s ∨ ∃ reader writer, Outdated id s reader writer acts) := by
  obtain ⟨past, g, lifetime, filled, future, rfl, kept⟩ := run.held_by_fill copies empty held
  obtain ⟨_, _, -, leads⟩ := run.exchange_leads
  obtain ⟨_, s, -, sameKey, rfl, read⟩ := (r.conduct leads).fills _ _ _ _ rfl
  obtain rfl := cacheKey_injective sameKey
  refine ⟨s, rfl, ?_⟩
  obtain ⟨earlier, between, rfl⟩ := List.append_of_mem (mem_transcript.mp read)
  have whole := run
  rw [List.append_assoc, List.cons_append] at run
  obtain ⟨before, middle, _, _, first, _, answered, middleEq, second⟩ := run.at_exchange
  obtain ⟨same, ⟨_, failed⟩ | found⟩ := live_of_lookup rows answered
  · cases failed
  have current : middle.world.store.live id = some s := by
    unfold Store.live
    rw [same]
    exact (Except.ok.inj found).symm
  rcases second.live_or_changes rows current with still | ⟨u, e, member, changed⟩
  · exact .inl still
  · refine .inr ⟨g, u, e, _, lifetime, filled, future, changed, ?_, rfl, kept⟩
    rw [List.append_assoc, List.cons_append]
    exact ((List.singleton_sublist.mpr member).cons_cons _).trans
      (List.sublist_append_right earlier _)

/-- A request that changed a row and has ended has succeeded and has removed the cached copy. -/
theorem Runs.finish_of_changes {u : Nat} {e : Exchange} {operation : Operation}
    {result : Except Failure operation.Result} (run : Runs r around (idle w) acts t)
    (member : .exchange u e ∈ acts) (changed : e.changes id)
    (finished : .finish u operation result ∈ acts) :
    (∃ a, result = .ok a) ∧ ∃ evicted, .exchange u ⟨.cacheDelete (cacheKey id), evicted⟩ ∈ acts := by
  obtain ⟨past, future, rfl⟩ := List.append_of_mem finished
  obtain ⟨-, leads⟩ := run.finish_leads
  have done := run.exchange_before_finish member
  obtain ⟨succeeded, evicted, evicts⟩ := r.finish_of_changed changed leads (mem_transcript.mpr done)
  exact ⟨succeeded, evicted, List.mem_append_left _ (mem_transcript.mp evicts)⟩

/-- Once no request is being served, one that changed a row has removed the cached copy or was
dropped. -/
theorem Runs.excuse_of_outdated {reader writer : Nat} (run : Runs r around (idle w) acts t)
    (quiet : t.IsIdle) (outdated : Outdated id copy reader writer acts) :
    Abandoned id copy acts ∨ Overtaken id copy acts := by
  have known := outdated
  obtain ⟨e, _, _, _, _, changed, ordered, -⟩ := known
  have member : .exchange writer e ∈ acts :=
    ordered.subset (List.mem_cons_of_mem _ List.mem_cons_self)
  refine Classical.or_iff_not_imp_right.mpr fun notOvertaken => ?_
  have stays : ∀ evicted, .exchange writer ⟨.cacheDelete (cacheKey id), evicted⟩ ∉ acts :=
    fun evicted evicts => notOvertaken ⟨reader, writer, outdated, evicted, evicts⟩
  refine ⟨reader, writer, outdated, ?_, stays⟩
  obtain ⟨past, future, rfl⟩ := List.append_of_mem member
  obtain ⟨before, middle, operation, next, first, waiting, -, middleEq, second⟩ := run.at_exchange
  have served : middle.requests writer = some ⟨operation, next e.answer⟩ := by
    rw [middleEq]
    exact enter_requests_self before writer _
  have given : writer < middle.arrived := by
    rw [middleEq]
    exact first.orderly.lt_arrived waiting
  rcases second.ends given served (quiet writer) with ⟨result, finished⟩ | dropped
  · have ended : .finish writer operation result ∈ past ++ .exchange writer e :: future :=
      List.mem_append_right _ (List.mem_cons_of_mem _ finished)
    obtain ⟨-, evicted, evicts⟩ := run.finish_of_changes member changed ended
    exact absurd evicts (stays evicted)
  · exact List.mem_append_right _ (List.mem_cons_of_mem _ dropped)

/-- A run that ends with nothing being served ends in the traffic with its world and its number of
requests so far. -/
theorem Runs.to_idle (whole : ∃ t, Runs r around start acts t ∧ t.IsIdle ∧
      t.world = after.world ∧ t.arrived = after.arrived) (quiet : after.IsIdle) :
    Runs r around start acts after := by
  obtain ⟨⟨_, requests, _⟩, run, ended, world, arrived⟩ := whole
  obtain ⟨_, others, _⟩ := after
  obtain rfl : requests = others := funext fun k => (ended k).trans (quiet k).symm
  cases world
  cases arrived
  exact run

end Traffic

namespace Sample

/-- The traffic after the first read: the cache has a copy of the status. -/
def primed : Traffic := ⟨⟨store, [], .free, filledCache, [], 1000000000⟩, fun _ => none, 1⟩

/-- The traffic after two more requests, one of which has changed the status and has removed the
copy. -/
def cleared : Traffic :=
  ⟨⟨{ store with statuses := [revised] }.tick, [], .free, .memory ⟨1, []⟩, [], 1000000000⟩,
    fun _ => none, 3⟩

/-- The traffic after another read: the cache has a copy of the changed status. -/
def refilled : Traffic :=
  ⟨⟨{ store with statuses := [revised] }.tick, [], .free,
    .memory ⟨1, [⟨cacheKey row.id, revised.toJson.text, 301000000000⟩]⟩, [], 1000000000⟩,
    fun _ => none, 4⟩

/-- A first read from its start to its end. -/
def priming : List Act := firstRead ++ [.finish 0 (.get row.id) (.ok row)]

/-- The first read is a run. -/
theorem runs_priming : Runs registry .reliable (idle world) priming primed := by
  refine .to_idle ⟨?traffic, ?run, ?quiet, ?final, ?arrived⟩ fun _ => rfl
  case run =>
    refine .cons .arrive ?_
    refine .cons (.exchange rfl answers_miss) ?_
    refine .cons (.exchange rfl ⟨isSound, _, rfl⟩) ?_
    refine .cons (.exchange rfl ⟨isSound, _, rfl⟩) ?_
    refine .cons (.exchange rfl answers_fill) ?_
    refine .cons (.finish rfl) ?_
    exact .refl
  case quiet => rintro (_ | k) <;> rfl
  case final => rfl
  case arrived => rfl

/-- The calls of a read of the changed status that fills the cache. -/
def refill : List Act := [
  .arrive 3 (.get row.id),
  .exchange 3 ⟨.cacheGet (cacheKey row.id), .error (.miss (cacheKey row.id))⟩,
  .exchange 3 ⟨.count .misses, ()⟩,
  .exchange 3 ⟨.query (.findStatus row.id), .ok (some revised)⟩,
  .exchange 3 ⟨.cacheSet (cacheKey row.id) revised.toJson.text 300, .ok ()⟩,
  .finish 3 (.get row.id) (.ok revised)]

/-- The read of the changed status is a run. -/
theorem runs_refill : Runs registry .reliable cleared refill refilled := by
  refine .to_idle ⟨?traffic, ?run, ?quiet, ?final, ?arrived⟩ fun _ => rfl
  case run =>
    refine .cons .arrive ?_
    refine .cons (.exchange rfl answers_miss) ?_
    refine .cons (.exchange rfl ⟨isSound, _, rfl⟩) ?_
    refine .cons (.exchange rfl ⟨isSound, _, rfl⟩) ?_
    refine .cons (.exchange rfl answers_fill) ?_
    refine .cons (.finish rfl) ?_
    exact .refl
  case quiet => rintro (_ | _ | _ | _ | k) <;> rfl
  case final => rfl
  case arrived => rfl

end Sample

end StatusRegistry
