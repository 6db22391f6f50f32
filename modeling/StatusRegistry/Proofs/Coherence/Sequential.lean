import StatusRegistry.Proofs.Coherence

/-!
# Requests served one at a time

Where a request arrives only after every earlier one has ended, the cache cannot be told from the
table. Statements may fail, and reads and writes of the cache may fail at will; only removals from
the cache are relied on. A read then gives the current row, says that there is none, or passes on an
error of its own lookup.
-/

namespace StatusRegistry

open Program (Leads)
open Registry (ReadEnds IsUseless lookedUp)
open Traffic

variable {r : Registry} {around : Surroundings} {before t : Traffic} {w : World}
  {acts past future : List Act} {id : Uuid} {key text : String}

/-- A request arrives only after every earlier one has ended, and none is dropped. -/
def OneByOne (acts : List Act) : Prop :=
  (∀ k, .drop k ∉ acts) ∧ ∀ past k operation future,
    acts = past ++ .arrive k operation :: future → ∀ j other, .arrive j other ∈ past →
      ∃ result, .finish j other result ∈ past

/-- The start of a run in which requests are served one at a time. -/
theorem OneByOne.front (oneByOne : OneByOne (past ++ future)) : OneByOne past := by
  refine ⟨fun k member => oneByOne.1 k (List.mem_append_left _ member), ?_⟩
  rintro earlier k operation later rfl
  exact oneByOne.2 earlier k operation (later ++ future) (by simp)

/-- Every request that has arrived has ended. -/
def Settled (acts : List Act) : Prop :=
  ∀ k operation, .arrive k operation ∈ acts → ∃ result, .finish k operation result ∈ acts

/-- A request that arrives after every earlier one has ended is served one at a time like them. -/
theorem OneByOne.append {k : Nat} {operation : Operation} (before : OneByOne past)
    (ended : Settled past)
    (alone : ∀ act ∈ acts, ∀ j other, act ≠ .arrive j other)
    (kept : ∀ act ∈ acts, ∀ j, act ≠ .drop j) : OneByOne (past ++ .arrive k operation :: acts) := by
  constructor
  · intro j member
    rcases List.mem_append.mp member with earlier | later
    · exact before.1 j earlier
    · rcases List.mem_cons.mp later with first | later
      · cases first
      · exact kept _ later j rfl
  · intro front j other back whole
    rcases List.append_eq_append_iff.mp whole with ⟨rest, rfl, same⟩ | ⟨rest, rfl, same⟩
    · cases rest with
      | nil =>
        rw [List.append_nil]
        exact ended
      | cons act rest =>
        obtain ⟨-, rfl⟩ := List.cons.inj same
        exact absurd rfl (alone _ (List.mem_append_right rest List.mem_cons_self) j other)
    · cases rest with
      | nil =>
        rw [List.append_nil] at ended
        exact ended
      | cons act rest =>
        obtain ⟨rfl, -⟩ := List.cons.inj same
        exact before.2 front j other rest rfl

/-- Every request has ended if all before the last have and the last has. -/
theorem Settled.append {k : Nat} {operation : Operation} (ended : Settled past)
    (alone : ∀ act ∈ acts, ∀ j other, act ≠ .arrive j other)
    (finished : ∃ result, .finish k operation result ∈ acts) :
    Settled (past ++ .arrive k operation :: acts) := by
  intro j other member
  rcases List.mem_append.mp member with earlier | later
  · obtain ⟨result, finished⟩ := ended j other earlier
    exact ⟨result, List.mem_append_left _ finished⟩
  · rcases List.mem_cons.mp later with now | later
    · cases now
      obtain ⟨result, finished⟩ := finished
      exact ⟨result, List.mem_append_right _ (List.mem_cons_of_mem _ finished)⟩
    · exact absurd rfl (alone _ later j other)

/-- Only a row that was promised and not there makes a failure of the store one of absence. -/
theorem StoreError.eq_noRow_of_notFound {e : StoreError} {operation : String}
    (absent : (e.toFailure.withOperation operation).kind = .notFound) : e = .noRow := by
  cases e with
  | rejected state message violated =>
    simp only [toFailure] at absent
    split at absent <;> cases absent
  | disconnected => cases absent
  | closed => cases absent
  | noRow => rfl
  | other _ => cases absent

namespace Traffic

/-- Where requests are served one at a time, a request that gets an answer comes after the end of
every other that has had one. -/
theorem Runs.finished_before {k u : Nat} {now e : Exchange}
    (run : Runs r around (idle w) (past ++ .exchange k now :: future) t)
    (oneByOne : OneByOne (past ++ .exchange k now :: future)) (member : .exchange u e ∈ past)
    (ne : u ≠ k) : ∃ operation result, .finish u operation result ∈ past := by
  obtain ⟨operation, _, arrived, -⟩ := run.exchange_leads
  have other : ∃ other, .arrive u other ∈ past := by
    obtain ⟨earlier, later, rfl⟩ := List.append_of_mem member
    rw [List.append_assoc] at run
    obtain ⟨other, _, before, -⟩ := run.exchange_leads
    exact ⟨other, List.mem_append_left _ before⟩
  obtain ⟨other, present⟩ := other
  obtain ⟨front, back, rfl⟩ := List.append_of_mem arrived
  rcases List.mem_append.mp present with before | behind
  · obtain ⟨result, finished⟩ := oneByOne.2 front k operation
      (back ++ .exchange k now :: future) (by simp) u other before
    exact ⟨other, result, List.mem_append_left _ finished⟩
  rcases List.mem_cons.mp behind with same | behind
  · exact absurd (Act.arrive.inj same).1 ne
  -- The other request would have arrived while this one was still being served.
  obtain ⟨middle, back, rfl⟩ := List.append_of_mem behind
  have split : front ++ .arrive k operation :: (middle ++ .arrive u other :: back) ++
      .exchange k now :: future = (front ++ .arrive k operation :: middle) ++
        .arrive u other :: (back ++ .exchange k now :: future) := by simp
  obtain ⟨result, finished⟩ := oneByOne.2 _ u other _ split k operation (by simp)
  rw [split] at run
  exact absurd rfl (run.silent_after_finish finished (.exchange k now) (by simp))

/-- A request that fills the cache is not one that changes a row. -/
theorem Runs.fills_ne_changes {g u : Nat} {e : Exchange} {lifetime : Nat}
    {filled : Except CacheError Unit} (run : Runs r around (idle w) acts t)
    (fills : .exchange g ⟨.cacheSet key text lifetime, filled⟩ ∈ acts)
    (changes : .exchange u e ∈ acts) (changed : e.changes id) : g ≠ u := by
  rintro rfl
  have ordered := run.orderly
  obtain ⟨front, back, split⟩ := List.append_of_mem changes
  obtain ⟨past, future, split'⟩ := List.append_of_mem fills
  obtain ⟨operation, _, arrives, toChange⟩ := (split ▸ run).exchange_leads
  obtain ⟨other, _, arrives', toFill⟩ := (split' ▸ run).exchange_leads
  have target := r.target_of_changes changed toChange
  obtain ⟨_, _, rfl, -⟩ := (r.conduct toFill).fills _ _ _ _ rfl
  have same := ordered.unique g _ _ (split ▸ List.mem_append_left _ arrives)
    (split' ▸ List.mem_append_left _ arrives')
  rw [same] at target
  cases target

/-- Requests served one at a time do not overtake each other. -/
theorem Runs.not_overtaken {s : Status} (run : Runs r around (idle w) acts t)
    (oneByOne : OneByOne acts) : ¬Overtaken id s acts := by
  rintro ⟨g, u, ⟨e, past, lifetime, filled, future, changed, inOrder, filling, kept⟩, evicted,
    evicts⟩
  have fills : .exchange g ⟨.cacheSet (cacheKey id) s.toJson.text lifetime, filled⟩ ∈ acts := by
    rw [filling]
    exact List.mem_append_right _ List.mem_cons_self
  have changes : .exchange u e ∈ acts :=
    inOrder.subset (List.mem_cons_of_mem _ List.mem_cons_self)
  have ne := run.fills_ne_changes fills changes changed
  obtain ⟨first, rest, rfl, read, change⟩ := List.cons_sublist_iff.mp inOrder
  obtain ⟨front, back, rfl⟩ := List.append_of_mem (List.singleton_sublist.mp change)
  rw [← List.append_assoc] at run oneByOne filling evicts
  obtain ⟨_, _, finished⟩ := run.finished_before oneByOne (List.mem_append_left front read) ne
  -- The read has ended when the row is changed, so it fills the cache before the removal.
  rcases before_or_behind filling.symm with order | late
  · rcases List.mem_append.mp evicts with soon | late
    · exact run.not_evicts_before changed soon
    · rcases List.mem_cons.mp late with now | late
      · cases now
        exact changed
      · exact kept u evicted (order _ late)
  · exact absurd rfl (run.silent_after_finish finished _ (List.mem_cons_of_mem _ late))

/-- Where requests are served one at a time, a copy is the current row once those that changed the
row have ended. -/
theorem Runs.held_is_live (rows : around.KeepsRows) (copies : around.KeepsCopies)
    (empty : ∀ key text, ¬w.cache.Holds key text) (run : Runs r around (idle w) acts t)
    (oneByOne : OneByOne acts)
    (ended : ∀ u e, .exchange u e ∈ acts → e.changes id →
      ∃ operation result, .finish u operation result ∈ acts)
    (held : t.world.cache.Holds (cacheKey id) text) :
    ∃ s, text = s.toJson.text ∧ t.world.store.live id = some s := by
  obtain ⟨s, same, current | ⟨g, u, outdated⟩⟩ := run.held_is_current rows copies empty held
  · exact ⟨s, same, current⟩
  · have known := outdated
    obtain ⟨e, _, _, _, _, changed, inOrder, -⟩ := known
    have changes : .exchange u e ∈ acts :=
      inOrder.subset (List.mem_cons_of_mem _ List.mem_cons_self)
    obtain ⟨_, _, finished⟩ := ended u e changes changed
    obtain ⟨-, evicts⟩ := run.finish_of_changes changes changed finished
    exact absurd ⟨g, u, outdated, evicts⟩ (run.not_overtaken oneByOne)

/-- Where requests are served one at a time, whatever a read has come upon was changed by requests
that have ended. -/
theorem Runs.changes_ended {k : Nat} {now : Exchange} {other : Uuid}
    (start : Runs r around (idle w) past before)
    (onward : Runs r around before (.exchange k now :: future) t)
    (oneByOne : OneByOne (past ++ .exchange k now :: future))
    (arrived : .arrive k (.get other) ∈ past) {u : Nat} {e : Exchange}
    (member : .exchange u e ∈ past) (changed : e.changes id) :
    ∃ operation result, .finish u operation result ∈ past := by
  refine (start.trans onward).finished_before oneByOne member ?_
  rintro rfl
  obtain ⟨front, back, rfl⟩ := List.append_of_mem member
  obtain ⟨operation, _, arrives, here⟩ := start.exchange_leads
  have target := r.target_of_changes changed here
  rw [start.orderly.unique u _ _ (List.mem_append_left _ arrives) arrived] at target
  cases target

/-- Where requests are served one at a time, the rows that a read meets are there until it ends. -/
theorem Runs.statuses_of_read {k : Nat} {now : Exchange} {result : Except Failure Status}
    (rows : around.KeepsRows) (start : Runs r around (idle w) past before)
    (onward : Runs r around before
      (.exchange k now :: (future ++ [.finish k (.get id) result])) t)
    (oneByOne : OneByOne (past ++ .exchange k now :: (future ++ [.finish k (.get id) result]))) :
    t.world.store.statuses = before.world.store.statuses := by
  have run := start.trans onward
  apply onward.statuses_eq rows
  intro u q answer member s
  have own : u = k := by
    rcases List.mem_cons.mp member with now | later
    · exact (Act.exchange.inj now).1
    rcases List.mem_append.mp later with between | last
    · refine Classical.byContradiction fun ne => ?_
      obtain ⟨front, back, rfl⟩ := List.append_of_mem between
      have split : past ++ .exchange k now :: (front ++ .exchange u ⟨.query q, answer⟩ :: back ++
          [.finish k (.get id) result]) = (past ++ .exchange k now :: front) ++
            .exchange u ⟨.query q, answer⟩ :: (back ++ [.finish k (.get id) result]) := by simp
      rw [split] at run oneByOne
      obtain ⟨_, _, finished⟩ := run.finished_before oneByOne (u := k) (e := now) (by simp)
        (Ne.symm ne)
      exact run.silent_after_finish finished (.finish k (.get id) result) (by simp) rfl
    · cases List.mem_singleton.mp last
  subst own
  have split : past ++ .exchange u now :: (future ++ [.finish u (.get id) result]) =
      (past ++ .exchange u now :: future) ++ .finish u (.get id) result :: [] := by simp
  have arrived := (split ▸ run).finish_leads.1
  obtain ⟨front, back, between⟩ := List.append_of_mem (List.mem_append_right past member)
  have ordered := run.orderly
  rw [between] at run
  obtain ⟨operation, next, arrives, here⟩ := run.exchange_leads
  have same : operation = .get id := ordered.unique u _ _
    (between ▸ List.mem_append_left _ arrives) (split ▸ List.mem_append_left _ arrived)
  subst same
  exact Store.rowsAfter_of_get here s

/-- What a read meets at one of its calls, where requests are served one at a time: a world whose
rows are still there when the read ends, and whose cache holds nothing but the current row. -/
theorem Runs.read_meets {k : Nat} {e : Exchange} {result : Except Failure Status}
    (rows : around.KeepsRows) (copies : around.KeepsCopies)
    (empty : ∀ key text, ¬w.cache.Holds key text)
    (run : Runs r around (idle w) (past ++ [.finish k (.get id) result]) t)
    (oneByOne : OneByOne (past ++ [.finish k (.get id) result])) (member : .exchange k e ∈ past) :
    ∃ world after, around.answers world e.call e.answer after ∧
      world.store.live id = t.world.store.live id ∧
      ∀ text, world.cache.Holds (cacheKey id) text →
        ∃ s, text = s.toJson.text ∧ world.store.live id = some s := by
  obtain ⟨arrived, -⟩ := run.finish_leads
  have ordered := run.orderly
  obtain ⟨front, back, rfl⟩ := List.append_of_mem member
  rw [List.append_assoc, List.cons_append] at run oneByOne ordered
  obtain ⟨_, _, arrives, -⟩ := run.exchange_leads
  have same := ordered.unique k _ _ (List.mem_append_left _ arrives)
    (by simpa using arrived)
  subst same
  obtain ⟨before, start, onward⟩ := run.split
  obtain ⟨_, answered⟩ := onward.answered
  refine ⟨_, _, answered, ?_, ?_⟩
  · unfold Store.live
    rw [start.statuses_of_read rows onward oneByOne]
  · intro text held
    exact start.held_is_live rows copies empty oneByOne.front
      (fun _ _ => start.changes_ended onward oneByOne arrives) held

end Traffic

/-- Requests served one at a time cannot tell the cache from the table. Between requests every copy
stands for the current live row of its key, so none is held for a status that is missing or deleted.
A read that ends gives the current row, or says that there is none, or passes on the error of its
lookup after the cache gave nothing that could be used. -/
theorem cache_is_transparent (r : Registry) {w : World}
    (empty : ∀ key text, ¬w.cache.Holds key text) {acts : List Act} {t : Traffic}
    (run : Runs r .unreliable (idle w) acts t) (oneByOne : OneByOne acts)
    (dated : ∀ s ∈ t.world.store.statuses, s.IsDated) :
    (t.IsIdle → ∀ id text, t.world.cache.Holds (cacheKey id) text →
      ∃ s, t.world.store.live id = some s ∧ Status.decode (Utf8.octets text) = .ok s) ∧
    ∀ past k id result, acts = past ++ [.finish k (.get id) result] →
      (∀ s, result = .ok s → t.world.store.live id = some s) ∧
      ∀ failure, result = .error failure →
        failure = Failure.statusNotFound id ∧ t.world.store.live id = none ∨
        ∃ e read, .exchange k ⟨.cacheGet (cacheKey id), read⟩ ∈ past ∧ IsUseless read ∧
          .exchange k ⟨.query (.findStatus id), .error e⟩ ∈ past ∧
          failure = e.toFailure.withOperation (Statement.findStatus id).name ∧
          (failure.kind = .notFound → e = .noRow) := by
  have rows := Surroundings.unreliable_keepsRows
  have copies := Surroundings.unreliable_keepsCopies
  have decodes : ∀ {id s}, t.world.store.live id = some s →
      Status.decode (Utf8.octets s.toJson.text) = .ok s :=
    fun current => Status.decode_text (dated _ (List.mem_of_find?_eq_some current))
  constructor
  · intro quiet id text held
    obtain ⟨s, rfl, current | ⟨reader, writer, outdated⟩⟩ :=
      run.held_is_current rows copies empty held
    · exact ⟨s, current, decodes current⟩
    · rcases run.excuse_of_outdated quiet outdated with ⟨_, u, _, dropped, _⟩ | overtaken
      · exact absurd dropped (oneByOne.1 u)
      · exact absurd overtaken (run.not_overtaken oneByOne)
  · rintro past k id result rfl
    obtain ⟨-, leads⟩ := run.finish_leads
    cases r.readEnds leads with
    | @hit text s read decoded same =>
      subst same
      obtain ⟨world, _, answered, unchanged, holds⟩ :=
        run.read_meets rows copies empty oneByOne (mem_transcript.mp read)
      obtain ⟨row, rfl, current⟩ := holds text (copies.reads answered)
      rw [unchanged] at current
      rw [decodes current] at decoded
      cases decoded
      exact ⟨by rintro _ ⟨⟩; exact current, nofun⟩
    | @lookup read answer tried useless asked same =>
      subst same
      obtain ⟨world, _, answered, unchanged, -⟩ :=
        run.read_meets rows copies empty oneByOne (mem_transcript.mp asked)
      obtain ⟨-, ⟨e, rfl⟩ | rfl⟩ := live_of_lookup rows answered
      · refine ⟨nofun, ?_⟩
        rintro _ ⟨⟩
        exact .inr ⟨e, read, mem_transcript.mp tried, useless, mem_transcript.mp asked, rfl,
          StoreError.eq_noRow_of_notFound⟩
      · rw [unchanged]
        cases t.world.store.live id with
        | none => exact ⟨nofun, by rintro _ ⟨⟩; exact .inl ⟨rfl, rfl⟩⟩
        | some s => exact ⟨by rintro _ ⟨⟩; rfl, nofun⟩

namespace Sample

/-- A second read is given the copy. -/
def secondTurn : List Act := [
  .arrive 1 (.get row.id),
  .exchange 1 ⟨.cacheGet (cacheKey row.id), .ok row.toJson.text⟩,
  .exchange 1 ⟨.count .hits, ()⟩,
  .finish 1 (.get row.id) (.ok row)]

/-- After it an update removes the copy. -/
def thirdTurn : List Act := [
  .arrive 2 (.update ⟨owner⟩ row.id revision),
  .exchange 2 ⟨.query (.findStatus row.id), .ok (some row)⟩,
  .exchange 2 ⟨.query (.updateStatus row.id owner revision), .ok (some revised)⟩,
  .exchange 2 ⟨.cacheDelete (cacheKey row.id), .ok ()⟩,
  .finish 2 (.update ⟨owner⟩ row.id revision) (.ok revised)]

/-- The read and the update are a run, and they leave no copy in the cache. -/
theorem runs_turns : Runs registry .reliable primed (secondTurn ++ thirdTurn) cleared := by
  obtain ⟨next, serves, hit⟩ :=
    registry.serve_get_of_hit row.id (Status.decode_text row_isDated)
  have asks {t : Traffic} (served : t.requests 1 = some ⟨.get row.id, registry.serve (.get row.id)⟩) :
      t.requests 1 = some ⟨.get row.id, .call (.cacheGet (cacheKey row.id)) next⟩ := by
    rw [served, serves]
  have counts {t : Traffic} (told : t.requests 1 = some ⟨.get row.id, next (.ok row.toJson.text)⟩) :
      t.requests 1 = some ⟨.get row.id, .call (.count .hits) fun _ => .done (.ok row)⟩ := by
    rw [told, hit]
  refine .to_idle ⟨?traffic, ?run, ?quiet, ?final, ?arrived⟩ fun _ => rfl
  case run =>
    refine .cons .arrive ?_
    refine .cons (.exchange (asks rfl) ⟨isSound, _, rfl⟩) ?_
    refine .cons (.exchange (counts rfl) ⟨isSound, _, rfl⟩) ?_
    refine .cons (.finish rfl) ?_
    refine .cons .arrive ?_
    refine .cons (.exchange rfl ⟨isSound, _, rfl⟩) ?_
    refine .cons (.exchange rfl answers_revision) ?_
    refine .cons (.exchange rfl ⟨isSound, _, rfl⟩) ?_
    refine .cons (.finish rfl) ?_
    exact .refl
  case quiet => rintro (_ | _ | _ | k) <;> rfl
  case final => rfl
  case arrived => rfl

/-- The reads and the update are served one at a time. -/
theorem oneByOne_turns : OneByOne (priming ++ (secondTurn ++ thirdTurn) ++ refill) := by
  have nothing : OneByOne [] := ⟨nofun, fun _ _ _ _ whole => by simp at whole⟩
  have first : OneByOne priming := nothing.append nofun (by simp) (by simp)
  have ended : Settled priming :=
    Settled.append (nofun : Settled []) (by simp) ⟨.ok row, by simp⟩
  have second : OneByOne (priming ++ secondTurn) := first.append ended (by simp) (by simp)
  have ended : Settled (priming ++ secondTurn) := ended.append (by simp) ⟨.ok row, by simp⟩
  have third : OneByOne (priming ++ secondTurn ++ thirdTurn) :=
    second.append ended (by simp) (by simp)
  have ended : Settled (priming ++ secondTurn ++ thirdTurn) :=
    ended.append (by simp) ⟨.ok revised, by simp⟩
  rw [← List.append_assoc]
  exact third.append ended (by simp) (by simp)

end Sample

open Sample

/-- A status is read twice, updated and read again, one request after the other. The last read gives
the new content and leaves a copy that stands for it. -/
theorem turns_are_transparent : ∃ past,
    Runs registry .unreliable (idle world)
      (past ++ [.finish 3 (.get row.id) (.ok revised)]) refilled ∧
    .finish 1 (.get row.id) (.ok row) ∈ past ∧
    .finish 2 (.update ⟨owner⟩ row.id revision) (.ok revised) ∈ past ∧
    refilled.world.cache.Holds (cacheKey row.id) revised.toJson.text ∧
    (∃ s, refilled.world.store.live row.id = some s ∧
      Status.decode (Utf8.octets revised.toJson.text) = .ok s) ∧
    refilled.world.store.live row.id = some revised := by
  have run := ((runs_priming.trans runs_turns).trans runs_refill).unreliable
  have quiet : refilled.IsIdle := fun _ => rfl
  have dated : ∀ s ∈ refilled.world.store.statuses, s.IsDated := by
    intro s member
    rw [List.mem_singleton.mp member]
    exact revised_isDated
  have held : refilled.world.cache.Holds (cacheKey row.id) revised.toJson.text :=
    ⟨_, List.mem_cons_self, rfl, rfl⟩
  obtain ⟨copies, reads⟩ :=
    cache_is_transparent registry holds_nothing run oneByOne_turns dated
  have last : priming ++ (secondTurn ++ thirdTurn) ++ refill =
      (priming ++ (secondTurn ++ thirdTurn) ++ refill.dropLast) ++
        [.finish 3 (.get row.id) (.ok revised)] := rfl
  exact ⟨_, last ▸ run, by simp [secondTurn], by simp [thirdTurn], held, copies quiet _ _ held,
    (reads _ 3 row.id _ last).1 revised rfl⟩

end StatusRegistry
