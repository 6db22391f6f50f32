import StatusRegistry.Proofs.Contest.Fate

/-!
# Many changes of one row

Any number of requests to update or delete one live row run side by side, by callers that may change
it. What each of them returns is read off the fate of the row: an update or a deletion succeeds if
its statement found the row, and nothing but the order of the statements decides which do.
-/

namespace StatusRegistry

open Program (Leads)
open Traffic

section

variable {r : Registry} {around : Surroundings} {w : World} {t : Traffic}
  {acts past future : List Act} {row s : Status} {id user : Uuid} {i k : Nat}
  {revision : Revision} {caller : Caller} {operation : Operation}

namespace Traffic

/-- A row that a lookup finds in a contest has the creator of the contested row. -/
theorem Runs.found_createdBy (keeps : around.KeepsRows) (run : Runs r around (idle w) acts t)
    (contest : Contest r row acts) (live : w.store.live row.id = some row)
    (found : .exchange k ⟨.query (.findStatus row.id), .ok (some s)⟩ ∈ acts) :
    s.createdBy = row.createdBy := by
  obtain ⟨past, future, rfl⟩ := List.append_of_mem found
  obtain ⟨i, present⟩ := List.mem_iff_getElem?.mp (List.mem_of_find?_eq_some live)
  obtain ⟨before, middle, first, next, -⟩ := run.cut
  have seen := next.found_live keeps
  cases first.fate keeps contest.front live present with
  | unhurt standing =>
    cases seen.symm.trans standing.found
    exact standing.createdBy
  | buried _ _ standing => cases seen.symm.trans standing.gone

/-- The row that an update gives has the content that it asked for. -/
theorem Runs.shows (keeps : around.KeepsRows) (run : Runs r around (idle w) acts t)
    (member : .exchange k ⟨.query (.updateStatus id user revision), .ok (some s)⟩ ∈ acts) :
    Rewriting.Shows ⟨k, user, revision⟩ s := by
  obtain ⟨past, future, rfl⟩ := List.append_of_mem member
  obtain ⟨before, -, onward⟩ := run.split
  obtain ⟨_, answered⟩ := onward.answered
  obtain ⟨⟨_, ⟨⟩⟩, -⟩ | ⟨given, -⟩ := keeps.statements answered
  obtain ⟨e, refused⟩ | performed := before.world.store.execute_cases (.updateStatus id user revision)
  · rw [refused] at given
    cases given
  · rw [performed, Store.perform_updateStatus] at given
    cases found : before.world.store.live id with
    | none =>
      rw [found] at given
      cases given
    | some existing =>
      rw [found] at given
      cases given
      exact ⟨rfl, rfl, rfl, rfl⟩

/-- A request ends once. -/
theorem Runs.finish_unique (run : Runs r around (idle w) acts t)
    {result other : Except Failure operation.Result} (first : .finish k operation result ∈ acts)
    (second : .finish k operation other ∈ acts) : result = other := by
  have none_later : ∀ {past future : List Act} {result other : Except Failure operation.Result},
      acts = past ++ .finish k operation result :: future →
      .finish k operation other ∉ future := by
    rintro past future result other split later
    rw [split, ← List.singleton_append, ← List.append_assoc] at run
    exact run.silent_after_finish (List.mem_append_right past (List.mem_singleton.mpr rfl)) _ later
      rfl
  obtain ⟨past, future, split⟩ := List.append_of_mem first
  rw [split] at second
  rcases List.mem_append.mp second with earlier | later
  · obtain ⟨before, between, rfl⟩ := List.append_of_mem earlier
    rw [List.append_assoc] at split
    exact absurd (List.mem_append_right between List.mem_cons_self) (none_later split)
  · rcases List.mem_cons.mp later with now | later
    · cases now
      rfl
    · exact absurd later (none_later split)

/-- Once no request of a contest is being served, every one has ended. -/
theorem Runs.finishes (run : Runs r around (idle w) acts t) (quiet : t.IsIdle)
    (contest : Contest r row acts) (arrives : .arrive k operation ∈ acts) :
    ∃ result, .finish k operation result ∈ acts :=
  run.finishes_of_undropped quiet (contest.undropped _) arrives

/-- A request of a contest that has ended has been led there by answers that did not fail, and the
guard lets its caller pass with every row that it found. -/
theorem Runs.ended (keeps : around.KeepsRows) (run : Runs r around (idle w) acts t)
    (contest : Contest r row acts) (live : w.store.live row.id = some row)
    (passes : r.checkOwner row user = .ok ()) {result : Except Failure operation.Result}
    (finished : .finish k operation result ∈ acts) :
    ∃ calls, (∀ e ∈ calls, .exchange k e ∈ acts) ∧ (∀ e ∈ calls, ¬e.failed) ∧
      (∀ s, ⟨.query (.findStatus row.id), .ok (some s)⟩ ∈ calls →
        r.checkOwner s user = .ok ()) ∧ Leads (r.serve operation) calls (.done result) := by
  obtain ⟨past, future, split⟩ := List.append_of_mem finished
  have made : ∀ e ∈ transcript k past, .exchange k e ∈ acts := by
    intro e member
    rw [split]
    exact List.mem_append_left _ (mem_transcript.mp member)
  refine ⟨transcript k past, made, fun e member => contest.works k e (made e member), ?_, ?_⟩
  · intro s member
    exact Registry.checkOwner_of_createdBy
      (run.found_createdBy keeps contest live (made _ member)) passes
  · rw [split] at run
    exact run.finish_leads.2

/-- An update in a contest ends with the row that its statement rewrote, or because a statement
missed the row. -/
theorem Runs.update_ended (keeps : around.KeepsRows) (run : Runs r around (idle w) acts t)
    (contest : Contest r row acts) (live : w.store.live row.id = some row)
    (arrives : .arrive k (.update caller row.id revision) ∈ acts)
    {result : Except Failure Status}
    (finished : .finish k (.update caller row.id revision) result ∈ acts) :
    (∃ s, .exchange k ⟨.query (.updateStatus row.id caller.user revision), .ok (some s)⟩ ∈ acts ∧
      result = .ok s) ∨
      (∃ e, .exchange k e ∈ acts ∧ e.misses row.id) ∧
        result = .error (Failure.statusNotFound row.id) := by
  obtain ⟨_, change, identity, passes⟩ := contest.requests k _ arrives
  cases change with
  | update valid =>
    obtain ⟨calls, made, works, admits, whole⟩ := run.ended keeps contest live passes finished
    obtain ⟨s, member, same⟩ | ⟨⟨e, member, missed⟩, same⟩ :=
      Registry.update_ends identity valid works admits whole
    · exact .inl ⟨s, made _ member, same⟩
    · exact .inr ⟨⟨e, made e member, missed⟩, same⟩

/-- A deletion in a contest ends in success after its statement marked the row, or because a
statement missed the row. -/
theorem Runs.delete_ended (keeps : around.KeepsRows) (run : Runs r around (idle w) acts t)
    (contest : Contest r row acts) (live : w.store.live row.id = some row)
    (arrives : .arrive k (.delete caller row.id) ∈ acts) {result : Except Failure Unit}
    (finished : .finish k (.delete caller row.id) result ∈ acts) :
    (∃ n : Nat, n ≠ 0 ∧ .exchange k ⟨.query (.deleteStatus row.id), .ok n⟩ ∈ acts ∧
      result = .ok ()) ∨
      (∃ e, .exchange k e ∈ acts ∧ e.misses row.id) ∧ ∃ failure, failure.kind = .notFound ∧
        result = .error failure := by
  obtain ⟨_, change, identity, passes⟩ := contest.requests k _ arrives
  cases change with
  | delete =>
    obtain ⟨calls, made, works, admits, whole⟩ := run.ended keeps contest live passes finished
    obtain ⟨n, some, member, same⟩ | ⟨⟨e, member, missed⟩, failed⟩ :=
      Registry.delete_ends identity works admits whole
    · exact .inl ⟨n, some, made _ member, same⟩
    · exact .inr ⟨⟨e, made e member, missed⟩, failed⟩

end Traffic

/-- A request ends with a result and with no other. -/
def Returns (acts : List Act) (k : Nat) (operation : Operation)
    (result : Except Failure operation.Result) : Prop :=
  .finish k operation result ∈ acts ∧ ∀ other, .finish k operation other ∈ acts → other = result

/-- An update succeeds, and gives a row with the content that it asked for. -/
def Prevails (acts : List Act) (id : Uuid) (k : Nat) (caller : Caller) (revision : Revision) :
    Prop :=
  ∃ s, Returns acts k (.update caller id revision) (.ok s) ∧
    Rewriting.Shows ⟨k, caller.user, revision⟩ s

/-- How a contest ends without deletions: every update has had its statement and succeeds, and the
row is live with the content that the last of them asked for. -/
structure EndsLive (row : Status) (i : Nat) (acts : List Act) (rows : List Status) : Prop where
  updates : ∀ k caller revision, .arrive k (.update caller row.id revision) ∈ acts →
    ⟨k, caller.user, revision⟩ ∈ rewritings row.id acts ∧ Prevails acts row.id k caller revision
  final : ∃ s, rows[i]? = some s ∧ s.deletedAt = none ∧ HasLast (rewritings row.id acts) row s

/-- How a contest ends with deletions: one of them succeeds and the others find nothing, an update
succeeds exactly if its statement ran before and finds nothing otherwise, and the row is deleted
with the content that the last update before asked for. -/
structure EndsDeleted (row : Status) (i : Nat) (front : List Act) (winner : Nat) (acts : List Act)
    (rows : List Status) : Prop where
  wins : ∃ caller, Returns acts winner (.delete caller row.id) (.ok ())
  deletions : ∀ k caller, .arrive k (.delete caller row.id) ∈ acts → k ≠ winner →
    ∃ failure, failure.kind = .notFound ∧ Returns acts k (.delete caller row.id) (.error failure)
  updates : ∀ k caller revision, .arrive k (.update caller row.id revision) ∈ acts →
    (⟨k, caller.user, revision⟩ ∈ rewritings row.id front ∧
      Prevails acts row.id k caller revision) ∨
    (⟨k, caller.user, revision⟩ ∉ rewritings row.id front ∧
      Returns acts k (.update caller row.id revision) (.error (Failure.statusNotFound row.id)))
  final : ∃ s, rows[i]? = some s ∧ s.deletedAt ≠ none ∧ HasLast (rewritings row.id front) row s

namespace Traffic

/-- Every update of a contested row was asked for by one request. -/
theorem Runs.rewriting_arrives (run : Runs r around (idle w) acts t) {x : Rewriting}
    (member : x ∈ rewritings id acts) :
    ∃ caller : Caller, caller.user = x.user ∧
      .arrive x.ticket (.update caller id x.revision) ∈ acts := by
  obtain ⟨answer, member⟩ := mem_rewritings.mp member
  obtain ⟨past, future, rfl⟩ := List.append_of_mem member
  obtain ⟨_, _, arrives, leads⟩ := run.exchange_leads
  obtain ⟨caller, rfl, same⟩ := (r.conduct leads).revises _ _ _ _ rfl
  exact ⟨caller, same, List.mem_append_left _ arrives⟩

/-- Every deletion of a row was asked for by one request. -/
theorem Runs.deletion_arrives (run : Runs r around (idle w) acts t)
    {answer : Except StoreError Nat}
    (member : .exchange k ⟨.query (.deleteStatus id), answer⟩ ∈ acts) :
    ∃ caller, .arrive k (.delete caller id) ∈ acts := by
  obtain ⟨past, future, rfl⟩ := List.append_of_mem member
  obtain ⟨_, _, arrives, leads⟩ := run.exchange_leads
  obtain ⟨caller, rfl⟩ := (r.conduct leads).removes _ _ rfl
  exact ⟨caller, List.mem_append_left _ arrives⟩

/-- What a request of a contest has ended with is all that it returns. -/
theorem Runs.returns (run : Runs r around (idle w) acts t)
    {result : Except Failure operation.Result} (finished : .finish k operation result ∈ acts) :
    Returns acts k operation result :=
  ⟨finished, fun _ other => run.finish_unique other finished⟩

/-- A contest without deletions ends with the row live. -/
theorem Runs.endsLive (keeps : around.KeepsRows) (run : Runs r around (idle w) acts t)
    (quiet : t.IsIdle) (contest : Contest r row acts) (live : w.store.live row.id = some row)
    (standing : Unhurt row i acts t.world.store.statuses s) :
    EndsLive row i acts t.world.store.statuses where
  updates := by
    intro k caller revision arrives
    obtain ⟨result, finished⟩ := run.finishes quiet contest arrives
    obtain ⟨s, made, rfl⟩ | ⟨⟨e, made, missed⟩, -⟩ :=
      run.update_ended keeps contest live arrives finished
    · exact ⟨mem_rewritings.mpr ⟨_, made⟩, s, run.returns finished, run.shows keeps made⟩
    · exact absurd missed (standing.met k e made)
  final :=
    ⟨s, standing.present, (deletedAt_of_isTarget (List.find?_some standing.found)).2,
      standing.content⟩

/-- A contest in which a deletion succeeded ends with the row deleted. -/
theorem Runs.endsDeleted (keeps : around.KeepsRows) (run : Runs r around (idle w) acts t)
    (quiet : t.IsIdle) (contest : Contest r row acts) (live : w.store.live row.id = some row)
    {d n : Nat}
    (split : acts = past ++ .exchange d ⟨.query (.deleteStatus row.id), .ok n⟩ :: future)
    (some : n ≠ 0) (standing : Buried row i past future t.world.store.statuses s) :
    EndsDeleted row i past d acts t.world.store.statuses := by
  have cause : .exchange d ⟨.query (.deleteStatus row.id), .ok n⟩ ∈ acts := by
    rw [split]
    exact List.mem_append_right _ List.mem_cons_self
  -- A statement that changed the row ran before the deletion, or is the deletion.
  have changes_before : ∀ {j e}, .exchange j e ∈ acts → e.changes row.id →
      .exchange j e ∈ past ∨ j = d ∧ e = ⟨.query (.deleteStatus row.id), .ok n⟩ := by
    intro j e made changed
    rw [split] at made
    rcases List.mem_append.mp made with before | later
    · exact .inl before
    · rcases List.mem_cons.mp later with now | behind
      · cases now
        exact .inr ⟨rfl, rfl⟩
      · exact absurd changed (standing.unchanged j e behind)
  constructor
  case wins =>
    obtain ⟨caller, arrives⟩ := run.deletion_arrives cause
    obtain ⟨result, finished⟩ := run.finishes quiet contest arrives
    obtain ⟨⟨⟨⟩, rfl⟩, -⟩ := run.finish_of_changes cause ⟨rfl, some⟩ finished
    exact ⟨caller, run.returns finished⟩
  case deletions =>
    intro k caller arrives other
    obtain ⟨result, finished⟩ := run.finishes quiet contest arrives
    obtain ⟨m, changed, made, rfl⟩ | ⟨-, failure, kind, rfl⟩ :=
      run.delete_ended keeps contest live arrives finished
    · obtain before | ⟨same, -⟩ := changes_before made ⟨rfl, changed⟩
      · exact absurd before (standing.undeleted k _)
      · exact absurd same other
    · exact ⟨failure, kind, run.returns finished⟩
  case updates =>
    intro k caller revision arrives
    obtain ⟨result, finished⟩ := run.finishes quiet contest arrives
    obtain ⟨s, made, rfl⟩ | ⟨-, rfl⟩ := run.update_ended keeps contest live arrives finished
    · obtain before | ⟨-, same⟩ := changes_before made rfl
      · exact .inl ⟨mem_rewritings.mpr ⟨_, before⟩, s, run.returns finished, run.shows keeps made⟩
      · cases same
    · refine .inr ⟨fun before => ?_, run.returns finished⟩
      obtain ⟨answer, before⟩ := mem_rewritings.mp before
      have made : .exchange k ⟨.query (.updateStatus row.id caller.user revision), answer⟩ ∈
          acts := by
        rw [split]
        exact List.mem_append_left _ before
      -- Before the deletion no statement misses the row, so this one would have succeeded.
      rcases answer with e | (_ | s)
      · exact contest.works k _ made trivial
      · exact standing.met k _ before rfl
      · obtain ⟨⟨_, ⟨⟩⟩, -⟩ := run.finish_of_changes made rfl finished
  case final => exact ⟨s, standing.present, standing.deleted, standing.content⟩

end Traffic

end

/-- Of many requests that change one live row side by side, in whatever order their calls come and
whatever the cache does, the last to have its statement wins. Every update was asked for by one
request. Without deletions every update succeeds with its own content, and the row ends with the
whole content of the update whose statement ran last. With deletions exactly one succeeds; what
comes after its statement finds nothing, what came before succeeds, and the row ends deleted with the
content of the last update before. -/
theorem last_writer_wins (r : Registry) {around : Surroundings} (keeps : around.KeepsRows)
    {w : World} {acts : List Act} {t : Traffic} (run : Runs r around (idle w) acts t)
    (quiet : t.IsIdle) {row : Status} (contest : Contest r row acts)
    (live : w.store.live row.id = some row) {i : Nat}
    (present : w.store.statuses[i]? = some row) :
    (∀ x ∈ rewritings row.id acts, ∃ caller : Caller, caller.user = x.user ∧
      .arrive x.ticket (.update caller row.id x.revision) ∈ acts) ∧
    ((∀ k caller, .arrive k (.delete caller row.id) ∉ acts) →
      EndsLive row i acts t.world.store.statuses) ∧
    ((∃ k caller, .arrive k (.delete caller row.id) ∈ acts) →
      ∃ (front back : List Act) (winner n : Nat),
        acts = front ++ .exchange winner ⟨.query (.deleteStatus row.id), .ok n⟩ :: back ∧ n ≠ 0 ∧
        EndsDeleted row i front winner acts t.world.store.statuses) := by
  refine ⟨fun x member => run.rewriting_arrives member, ?alone, ?deleted⟩
  case alone =>
    intro none
    cases run.fate keeps contest live present with
    | unhurt standing => exact run.endsLive keeps quiet contest live standing
    | buried split _ _ =>
      obtain ⟨caller, arrives⟩ := run.deletion_arrives (by
        rw [split]
        exact List.mem_append_right _ List.mem_cons_self)
      exact absurd arrives (none _ caller)
  case deleted =>
    rintro ⟨k, caller, arrives⟩
    cases run.fate keeps contest live present with
    | unhurt standing =>
      obtain ⟨result, finished⟩ := run.finishes quiet contest arrives
      obtain ⟨_, -, made, -⟩ | ⟨⟨e, made, missed⟩, -⟩ :=
        run.delete_ended keeps contest live arrives finished
      · exact absurd made (standing.undeleted k _)
      · exact absurd missed (standing.met k e made)
    | buried split some standing =>
      exact ⟨_, _, _, _, split, some, run.endsDeleted keeps quiet contest live split some standing⟩

namespace Sample

/-- A user who did not create the status. -/
def rival : Uuid := Uuid.ofOrdinal 9

/-- Two updates and two deletions of the status. All look it up, but for a late update, before
anything has happened to it. -/
def contested : List Act := [
  .arrive 0 (.update ⟨owner⟩ row.id revision),
  .arrive 1 (.delete ⟨owner⟩ row.id),
  .arrive 2 (.delete ⟨rival⟩ row.id),
  .exchange 0 ⟨.query (.findStatus row.id), .ok (some row)⟩,
  .exchange 1 ⟨.query (.findStatus row.id), .ok (some row)⟩,
  .exchange 2 ⟨.query (.findStatus row.id), .ok (some row)⟩,
  .exchange 0 ⟨.query (.updateStatus row.id owner revision), .ok (some revised)⟩,
  .exchange 2 ⟨.query (.deleteStatus row.id), .ok (1 : Nat)⟩,
  .arrive 3 (.update ⟨rival⟩ row.id revision),
  .exchange 3 ⟨.query (.findStatus row.id), .ok none⟩,
  .finish 3 (.update ⟨rival⟩ row.id revision) (.error (Failure.statusNotFound row.id)),
  .exchange 1 ⟨.query (.deleteStatus row.id), .ok (0 : Nat)⟩,
  .finish 1 (.delete ⟨owner⟩ row.id) (.error (Failure.statusGone row.id)),
  .exchange 0 ⟨.cacheDelete (cacheKey row.id), .ok ()⟩,
  .finish 0 (.update ⟨owner⟩ row.id revision) (.ok revised),
  .exchange 2 ⟨.cacheDelete (cacheKey row.id), .ok ()⟩,
  .finish 2 (.delete ⟨rival⟩ row.id) (.ok ())]

/-- The requests, side by side, are a run. -/
theorem runs_contested : ∃ t, Runs registry .reliable (idle world) contested t ∧ t.IsIdle := by
  refine ⟨?traffic, ?run, ?quiet⟩
  case run =>
    refine .cons .arrive ?_
    refine .cons .arrive ?_
    refine .cons .arrive ?_
    refine .cons (.exchange rfl ⟨isSound, _, rfl⟩) ?_
    refine .cons (.exchange rfl ⟨isSound, _, rfl⟩) ?_
    refine .cons (.exchange rfl ⟨isSound, _, rfl⟩) ?_
    refine .cons (.exchange rfl answers_revision) ?_
    refine .cons (.exchange rfl ⟨isSound, _, rfl⟩) ?_
    refine .cons .arrive ?_
    refine .cons (.exchange rfl ⟨isSound, _, rfl⟩) ?_
    refine .cons (.finish rfl) ?_
    refine .cons (.exchange rfl ⟨isSound, _, rfl⟩) ?_
    refine .cons (.finish rfl) ?_
    refine .cons (.exchange rfl ⟨isSound, _, rfl⟩) ?_
    refine .cons (.finish rfl) ?_
    refine .cons (.exchange rfl ⟨isSound, _, rfl⟩) ?_
    refine .cons (.finish rfl) ?_
    exact .refl
  case quiet => rintro (_ | _ | _ | _ | k) <;> rfl

/-- The requests contest the status. -/
theorem contest_contested : Contest registry row contested where
  requests := by
    have valid : revision.validate = .ok () := rfl
    intro k operation arrives
    simp only [contested, List.mem_cons, List.not_mem_nil, or_false, Act.arrive.injEq, reduceCtorEq,
      false_or] at arrives
    rcases arrives with ⟨-, rfl⟩ | ⟨-, rfl⟩ | ⟨-, rfl⟩ | ⟨-, rfl⟩
    · exact ⟨⟨owner⟩, .update valid, rfl, rfl⟩
    · exact ⟨⟨owner⟩, .delete, rfl, rfl⟩
    · exact ⟨⟨rival⟩, .delete, rfl, rfl⟩
    · exact ⟨⟨rival⟩, .update valid, rfl, rfl⟩
  works := by
    intro k e member
    simp only [contested, List.mem_cons, List.not_mem_nil, or_false, Act.exchange.injEq,
      reduceCtorEq, false_or] at member
    rcases member with ⟨-, rfl⟩ | ⟨-, rfl⟩ | ⟨-, rfl⟩ | ⟨-, rfl⟩ | ⟨-, rfl⟩ | ⟨-, rfl⟩ | ⟨-, rfl⟩ |
      ⟨-, rfl⟩ | ⟨-, rfl⟩ <;> exact id
  undropped := by
    intro k dropped
    simp [contested] at dropped

end Sample

open Sample in
/-- Of two deletions the one whose statement comes second finds nothing, as does an update that
arrives late, and the deleted status has the content of the update before. -/
theorem second_deletion_finds_nothing : ∃ t, Runs registry .reliable (idle world) contested t ∧
    t.IsIdle ∧ Contest registry row contested ∧ world.store.live row.id = some row ∧
    world.store.statuses[0]? = some row ∧
    ∃ (front back : List Act) (winner n : Nat),
      contested = front ++ .exchange winner ⟨.query (.deleteStatus row.id), .ok n⟩ :: back ∧
      n ≠ 0 ∧ EndsDeleted row 0 front winner contested t.world.store.statuses := by
  obtain ⟨t, run, quiet⟩ := runs_contested
  have live : world.store.live row.id = some row := rfl
  have present : world.store.statuses[0]? = some row := rfl
  obtain ⟨-, -, deleted⟩ := last_writer_wins registry Surroundings.reliable_keepsRows run quiet
    contest_contested live present
  exact ⟨t, run, quiet, contest_contested, live, present,
    deleted ⟨1, ⟨owner⟩, by simp [contested]⟩⟩

end StatusRegistry
