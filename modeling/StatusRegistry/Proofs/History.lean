import StatusRegistry.Proofs.Coherence

/-!
# The history of rows

A row is followed by its place in the table, which it never leaves. One step inserts a row at the
end of the table, gives one new content, marks one as deleted, or touches no row. So a row descends
from what it was at any earlier point: its origin stays, its content is either the old one or that
of one update, and once it is deleted nothing about it changes.
-/

namespace StatusRegistry

open Program (Leads)
open Store (rewritten)
open Traffic

variable {r : Registry} {around : Surroundings} {w : World} {t after : Traffic}
  {acts past future : List Act} {act : Act} {id : Uuid}

/-- What an act writes to a table of rows. -/
inductive Writes (rows : List Status) : Act → List Status → Prop where
  | nothing {act : Act} : Writes rows act rows
  | insertion {k : Nat} {draft : Draft} {owner : Uuid} {row : Status}
      (createdBy : row.createdBy = owner) (updatedBy : row.updatedBy = owner)
      (live : row.deletedAt = none) :
      Writes rows (.exchange k ⟨.query (.createStatus draft owner), .ok row⟩) (rows ++ [row])
  | revision {k : Nat} {id user : Uuid} {revision : Revision} {now : Instant} {row : Status} :
      Writes rows (.exchange k ⟨.query (.updateStatus id user revision), .ok (some row)⟩)
        (rewritten id (Store.revised now user revision) rows)
  | deletion {k : Nat} {id : Uuid} {now : Instant} {n : Nat} (some : n ≠ 0) :
      Writes rows (.exchange k ⟨.query (.deleteStatus id), .ok n⟩)
        (rewritten id (Store.deleted now) rows)

/-- A statement writes what the store makes of the rows. -/
theorem writes_execute (s : Store) (q : Statement) (k : Nat) :
    Writes s.statuses (.exchange k ⟨.query q, (s.execute q).1⟩) (s.execute q).2.statuses := by
  obtain ⟨e, refused⟩ | performed := s.execute_cases q
  · rw [refused]
    exact .nothing
  · rw [performed, Store.perform_statuses]
    cases q with
    | createStatus draft owner => exact .insertion rfl rfl rfl
    | updateStatus target user revision =>
      rw [Store.perform_updateStatus]
      cases found : s.live target with
      | none =>
        rw [Store.rowsAfter, Store.rewritten_of_absent found]
        exact .nothing
      | some row => exact .revision
    | deleteStatus target =>
      by_cases some : s.statuses.countP (Store.isTarget target) = 0
      · have absent : s.statuses.find? (Store.isTarget target) = none :=
          List.find?_eq_none.mpr (List.countP_eq_zero.mp some)
        rw [Store.rowsAfter, Store.rewritten_of_absent absent]
        exact .nothing
      · exact .deletion some
    | _ => exact .nothing

namespace Traffic

/-- Every step writes one of these things. -/
theorem Step.writes (rows : around.KeepsRows) (next : Step r around t act after) :
    Writes t.world.store.statuses act after.world.store.statuses := by
  cases next with
  | @exchange k _ c _ answer world _ answered =>
    show Writes _ _ world.store.statuses
    cases c with
    | query q =>
      rcases rows.statements answered with ⟨-, same⟩ | ⟨rfl, same⟩
      · rw [same]
        exact .nothing
      · rw [same]
        exact writes_execute _ q k
    | _ =>
      rw [rows.others answered rfl]
      exact .nothing
  | drift drifted =>
    show Writes _ _ (World.store _).statuses
    rw [rows.drifts drifted]
    exact .nothing
  | _ => exact .nothing

end Traffic

/-- What has become of a row in a run. -/
structure Descends (acts : List Act) (s s' : Status) : Prop where
  id : s'.id = s.id
  name : s'.name = s.name
  createdBy : s'.createdBy = s.createdBy
  createdAt : s'.createdAt = s.createdAt
  /-- The content is the old one, or that of one update under the identifier of the row. -/
  content : (s'.description = s.description ∧ s'.active = s.active ∧
      s'.orderNumber = s.orderNumber ∧ s'.updatedBy = s.updatedBy) ∨
    ∃ k user revision row,
      .exchange k ⟨.query (.updateStatus s.id user revision), .ok (some row)⟩ ∈ acts ∧
      s'.description = revision.description ∧ s'.active = revision.active ∧
      s'.orderNumber = revision.orderNumber ∧ s'.updatedBy = user
  /-- A live row is deleted only by a deletion under its identifier. -/
  deletion : s'.deletedAt = s.deletedAt ∨ s.deletedAt = none ∧
    ∃ k n, n ≠ 0 ∧ .exchange k ⟨.query (.deleteStatus s.id), .ok (n : Nat)⟩ ∈ acts
  /-- A deleted row stays as it is. -/
  frozen : s.deletedAt ≠ none → s' = s

namespace Descends

variable {s middle s' : Status}

/-- A row that nothing has happened to. -/
theorem refl (acts : List Act) (s : Status) : Descends acts s s where
  id := rfl
  name := rfl
  createdBy := rfl
  createdAt := rfl
  content := .inl ⟨rfl, rfl, rfl, rfl⟩
  deletion := .inl rfl
  frozen := fun _ => rfl

/-- What has become of a row in two runs, one after the other. -/
theorem trans (first : Descends past s middle) (second : Descends future middle s') :
    Descends (past ++ future) s s' where
  id := second.id.trans first.id
  name := second.name.trans first.name
  createdBy := second.createdBy.trans first.createdBy
  createdAt := second.createdAt.trans first.createdAt
  content := by
    rcases second.content with ⟨description, active, orderNumber, updatedBy⟩ | later
    · rw [description, active, orderNumber, updatedBy]
      rcases first.content with same | ⟨k, user, revision, row, member, values⟩
      · exact .inl same
      · exact .inr ⟨k, user, revision, row, List.mem_append_left _ member, values⟩
    · obtain ⟨k, user, revision, row, member, values⟩ := later
      rw [first.id] at member
      exact .inr ⟨k, user, revision, row, List.mem_append_right _ member, values⟩
  deletion := by
    rcases second.deletion with same | ⟨live, k, n, some, member⟩
    · rw [same]
      rcases first.deletion with still | ⟨live, k, n, some, member⟩
      · exact .inl still
      · exact .inr ⟨live, k, n, some, List.mem_append_left _ member⟩
    · rw [first.id] at member
      refine .inr ⟨?_, k, n, some, List.mem_append_right _ member⟩
      refine Classical.byContradiction fun deleted => ?_
      rw [first.frozen deleted] at live
      exact deleted live
  frozen := by
    intro deleted
    obtain rfl := first.frozen deleted
    exact second.frozen deleted

end Descends

/-- A row that is a target is live and has the identifier. -/
theorem deletedAt_of_isTarget {s : Status} (target : Store.isTarget id s = true) :
    s.id = id ∧ s.deletedAt = none := by
  obtain ⟨same, live⟩ := Store.isTarget_iff.mp target
  exact ⟨same, Option.isNone_iff_eq_none.mp live⟩

/-- One row after its table has been rewritten under an identifier. -/
theorem getElem?_rewritten {change : Status → Status} {rows : List Status} {i : Nat} {s : Status}
    (present : rows[i]? = some s) :
    (rewritten id change rows)[i]? = some (if Store.isTarget id s then change s else s) := by
  rw [rewritten, List.getElem?_map, present]
  rfl

/-- A place of a rewritten table holds what it held, or a target that has been changed. -/
theorem rewritten_cases (id : Uuid) (change : Status → Status) (rows : List Status) (i : Nat) :
    (rewritten id change rows)[i]? = rows[i]? ∨
      ∃ s, rows[i]? = some s ∧ Store.isTarget id s = true ∧
        (rewritten id change rows)[i]? = some (change s) := by
  cases present : rows[i]? with
  | none =>
    rw [rewritten, List.getElem?_map, present]
    exact .inl rfl
  | some s =>
    rw [getElem?_rewritten present]
    by_cases target : Store.isTarget id s = true
    · rw [if_pos target]
      exact .inr ⟨s, rfl, target, rfl⟩
    · rw [if_neg target]
      exact .inl rfl

/-- One row after an act that writes to its table. -/
theorem Writes.row {rows rows' : List Status} (writes : Writes rows act rows') {i : Nat}
    {s : Status} (present : rows[i]? = some s) :
    ∃ s', rows'[i]? = some s' ∧ Descends [act] s s' := by
  cases writes with
  | nothing => exact ⟨s, present, .refl _ s⟩
  | insertion =>
    have within : i < rows.length := (List.getElem?_eq_some_iff.mp present).1
    exact ⟨s, (List.getElem?_append_left within).trans present, .refl _ s⟩
  | @revision k _ user revision now row =>
    refine ⟨_, getElem?_rewritten present, ?_⟩
    split
    · rename_i target
      obtain ⟨rfl, live⟩ := deletedAt_of_isTarget target
      exact
        { id := rfl, name := rfl, createdBy := rfl, createdAt := rfl
          content := .inr ⟨k, user, revision, row, List.mem_singleton.mpr rfl, rfl, rfl, rfl, rfl⟩
          deletion := .inl rfl
          frozen := fun deleted => absurd live deleted }
    · exact .refl _ s
  | @deletion k _ now n some =>
    refine ⟨_, getElem?_rewritten present, ?_⟩
    split
    · rename_i target
      obtain ⟨rfl, live⟩ := deletedAt_of_isTarget target
      exact
        { id := rfl, name := rfl, createdBy := rfl, createdAt := rfl
          content := .inl ⟨rfl, rfl, rfl, rfl⟩
          deletion := .inr ⟨live, k, n, some, List.mem_singleton.mpr rfl⟩
          frozen := fun deleted => absurd live deleted }
    · exact .refl _ s

/-- The identifiers of a table after an act begin with those before it. -/
theorem Writes.ids_remain {rows rows' : List Status} (writes : Writes rows act rows') :
    rows.map Status.id <+: rows'.map Status.id := by
  have rewrites : ∀ (id : Uuid) (change : Status → Status), (∀ s, (change s).id = s.id) →
      (rewritten id change rows).map Status.id = rows.map Status.id := by
    intro id change keeps
    rw [rewritten, List.map_map]
    refine List.map_congr_left fun s _ => ?_
    show (if Store.isTarget id s then change s else s).id = s.id
    split
    · exact keeps s
    · rfl
  cases writes with
  | nothing => exact List.prefix_refl _
  | insertion =>
    rw [List.map_append]
    exact List.prefix_append _ _
  | @revision _ id user revision now _ =>
    have same := rewrites id (Store.revised now user revision) fun _ => rfl
    exact ⟨[], (List.append_nil _).trans same.symm⟩
  | @deletion _ id now _ _ =>
    have same := rewrites id (Store.deleted now) fun _ => rfl
    exact ⟨[], (List.append_nil _).trans same.symm⟩

namespace Traffic

/-- Every row of a run keeps its place. -/
theorem Runs.descends (rows : around.KeepsRows) (run : Runs r around t acts after) {i : Nat}
    {s : Status} (present : t.world.store.statuses[i]? = some s) :
    ∃ s', after.world.store.statuses[i]? = some s' ∧ Descends acts s s' := by
  induction run with
  | refl => exact ⟨s, present, .refl _ s⟩
  | step _ next inductionHypothesis =>
    obtain ⟨middle, before, first⟩ := inductionHypothesis
    obtain ⟨s', now, second⟩ := (next.writes rows).row before
    exact ⟨s', now, first.trans second⟩

/-- The identifiers of a table at the end of a run begin with those at its start. -/
theorem Runs.ids_remain (rows : around.KeepsRows) (run : Runs r around t acts after) :
    t.world.store.statuses.map Status.id <+: after.world.store.statuses.map Status.id := by
  induction run with
  | refl => exact List.prefix_refl _
  | step _ next inductionHypothesis =>
    exact inductionHypothesis.trans (next.writes rows).ids_remain

end Traffic

/-- A row descends from one that was inserted with its creator as its first updater. -/
def Inserted (acts : List Act) (s : Status) : Prop :=
  ∃ k draft owner row, .exchange k ⟨.query (.createStatus draft owner), .ok row⟩ ∈ acts ∧
    row.createdBy = owner ∧ row.updatedBy = owner ∧ row.deletedAt = none ∧ Descends acts row s

/-- An inserted row that goes on stays an inserted row. -/
theorem Inserted.trans {s s' : Status} (first : Inserted past s) (second : Descends future s s') :
    Inserted (past ++ future) s' := by
  obtain ⟨k, draft, owner, row, member, createdBy, updatedBy, live, descends⟩ := first
  exact ⟨k, draft, owner, row, List.mem_append_left _ member, createdBy, updatedBy, live,
    descends.trans second⟩

/-- An insertion is an insertion in every longer run. -/
theorem Inserted.append_left {s : Status} (inserted : Inserted future s) (past : List Act) :
    Inserted (past ++ future) s := by
  obtain ⟨k, draft, owner, row, member, createdBy, updatedBy, live, descends⟩ := inserted
  exact ⟨k, draft, owner, row, List.mem_append_right _ member, createdBy, updatedBy, live,
    (Descends.refl past row).trans descends⟩

/-- An act fills a place only with a row that it inserts. -/
theorem Writes.inserted {rows rows' : List Status} (writes : Writes rows act rows') {i : Nat}
    {s : Status} (vacant : rows[i]? = none) (present : rows'[i]? = some s) :
    Inserted [act] s := by
  have beyond : rows.length ≤ i := List.getElem?_eq_none_iff.mp vacant
  cases writes with
  | nothing =>
    rw [vacant] at present
    cases present
  | @insertion k draft owner row createdBy updatedBy live =>
    rw [List.getElem?_append_right beyond] at present
    obtain rfl := List.mem_singleton.mp (List.mem_of_getElem? present)
    exact ⟨k, draft, owner, s, List.mem_singleton.mpr rfl, createdBy, updatedBy, live, .refl _ s⟩
  | revision =>
    rw [rewritten, List.getElem?_map, vacant] at present
    cases present
  | deletion =>
    rw [rewritten, List.getElem?_map, vacant] at present
    cases present

namespace Traffic

/-- A place that a row has come to fill in a run was filled by an insertion. -/
theorem Runs.inserted (rows : around.KeepsRows) (run : Runs r around t acts after) {i : Nat}
    {s : Status} (vacant : t.world.store.statuses[i]? = none)
    (present : after.world.store.statuses[i]? = some s) : Inserted acts s := by
  induction run generalizing s with
  | refl =>
    rw [vacant] at present
    cases present
  | @step acts t' _ act prior next inductionHypothesis =>
    have writes := next.writes rows
    cases before : t'.world.store.statuses[i]? with
    | none => exact (writes.inserted before present).append_left acts
    | some middle =>
      obtain ⟨_, now, further⟩ := writes.row before
      rw [present] at now
      cases now
      exact (inductionHypothesis before).trans further

end Traffic

/-- A request for an operation that ends in success, if it ends. -/
def Succeeds (acts : List Act) (k : Nat) (operation : Operation) : Prop :=
  .arrive k operation ∈ acts ∧
    ∀ result, .finish k operation result ∈ acts → ∃ a, result = .ok a

/-- Whatever was written to a table was written by one request that succeeds, with the values and
in the name of the caller of that request. -/
structure Accountable (acts : List Act) : Prop where
  creation : ∀ k draft owner row,
    .exchange k ⟨.query (.createStatus draft owner), .ok row⟩ ∈ acts →
    ∃ caller : Caller, caller.user = owner ∧ Succeeds acts k (.create caller draft)
  update : ∀ k id user revision row,
    .exchange k ⟨.query (.updateStatus id user revision), .ok (some row)⟩ ∈ acts →
    ∃ caller : Caller, caller.user = user ∧ Succeeds acts k (.update caller id revision)
  deletion : ∀ k id n, n ≠ 0 → .exchange k ⟨.query (.deleteStatus id), .ok (n : Nat)⟩ ∈ acts →
    ∃ caller, Succeeds acts k (.delete caller id)

namespace Traffic

/-- A statement that changed a row was made by a request for just that, which succeeds. -/
theorem Runs.succeeds_of_changes (run : Runs r around (idle w) acts t) {k : Nat} {e : Exchange}
    (member : .exchange k e ∈ acts) (changed : e.changes id) :
    ∃ (operation : Operation) (past : List Exchange) (next : e.call.Answer → _),
      Leads (r.serve operation) past (.call e.call next) ∧ Succeeds acts k operation := by
  obtain ⟨front, back, rfl⟩ := List.append_of_mem member
  obtain ⟨operation, next, arrives, leads⟩ := run.exchange_leads
  refine ⟨operation, _, next, leads, List.mem_append_left _ arrives, ?_⟩
  intro result finished
  exact (run.finish_of_changes member changed finished).1

/-- Every run is accountable. -/
theorem Runs.accountable (run : Runs r around (idle w) acts t) : Accountable acts where
  creation := by
    intro k draft owner row member
    have whole := run
    obtain ⟨front, back, rfl⟩ := List.append_of_mem member
    obtain ⟨_, _, arrives, leads⟩ := run.exchange_leads
    obtain ⟨caller, rfl, user⟩ := (r.conduct leads).inserts _ _ _ rfl
    refine ⟨caller, user, List.mem_append_left _ arrives, ?_⟩
    intro result finished
    obtain ⟨past, future, split⟩ := List.append_of_mem finished
    rw [split] at whole member
    obtain ⟨-, ended⟩ := whole.finish_leads
    have done := mem_transcript.mpr (whole.exchange_before_finish member)
    exact ⟨row, r.finish_of_inserts ended done⟩
  update := by
    intro k id user revision row member
    have changed : Exchange.changes id
        ⟨.query (.updateStatus id user revision), .ok (some row)⟩ := rfl
    obtain ⟨_, _, _, leads, succeeds⟩ := run.succeeds_of_changes member changed
    obtain ⟨caller, rfl, same⟩ := (r.conduct leads).revises _ _ _ _ rfl
    exact ⟨caller, same, succeeds⟩
  deletion := by
    intro k id n some member
    have changed : Exchange.changes id ⟨.query (.deleteStatus id), .ok n⟩ := ⟨rfl, some⟩
    obtain ⟨_, _, _, leads, succeeds⟩ := run.succeeds_of_changes member changed
    obtain ⟨caller, rfl⟩ := (r.conduct leads).removes _ _ rfl
    exact ⟨caller, succeeds⟩

end Traffic

/-- What a deleted row leaves possible under its identifier. -/
structure Closed (past future : List Act) (id : Uuid) : Prop where
  /-- An update or a deletion succeeds only with a change from before. -/
  changes : ∀ k operation a, operation.target? = some id → .finish k operation (.ok a) ∈ future →
    ∃ e, .exchange k e ∈ past ∧ e.changes id
  /-- A later update or deletion does not succeed. -/
  refuses : ∀ k operation a, operation.target? = some id → .arrive k operation ∈ future →
    .finish k operation (.ok a) ∉ future
  /-- A later listing or search does not show the row. -/
  lists : ∀ k operation a, .arrive k operation ∈ future → .finish k operation (.ok a) ∈ future →
    ∀ s ∈ operation.listed a, s.id ≠ id

namespace Traffic

variable {mid : Traffic} {s : Status} {i : Nat}

/-- Where identifiers are distinct, no row under the identifier of a deleted one is ever live. -/
theorem Runs.not_live_of_deleted (rows : around.KeepsRows) (run : Runs r around mid past t)
    (onward : Runs r around t future after)
    (distinct : (after.world.store.statuses.map Status.id).Nodup)
    (present : mid.world.store.statuses[i]? = some s) (deleted : s.deletedAt ≠ none)
    {other : Status} (member : other ∈ t.world.store.statuses) (same : other.id = s.id) :
    other.isLive = false := by
  obtain ⟨_, still, descends⟩ := run.descends rows present
  obtain rfl := descends.frozen deleted
  obtain ⟨j, found⟩ := List.mem_iff_getElem?.mp member
  have apart := distinct.sublist (onward.ids_remain rows).sublist
  obtain rfl := Store.place_eq apart still found same.symm
  rw [still] at found
  cases found
  exact Bool.eq_false_iff.mpr fun live => deleted (Option.isNone_iff_eq_none.mp live)

/-- Where identifiers are distinct, no statement changes a row under the identifier of a deleted
one. -/
theorem Runs.not_changes_of_deleted (rows : around.KeepsRows) (run : Runs r around mid acts t)
    (distinct : (t.world.store.statuses.map Status.id).Nodup)
    (present : mid.world.store.statuses[i]? = some s) (deleted : s.deletedAt ≠ none) {k : Nat}
    {e : Exchange} (member : .exchange k e ∈ acts) : ¬e.changes s.id := by
  intro changed
  obtain ⟨front, back, rfl⟩ := List.append_of_mem member
  obtain ⟨before, first, second⟩ := run.split
  obtain ⟨world, answered⟩ := second.answered
  obtain ⟨c, answer⟩ := e
  have found : ∃ row, before.world.store.live s.id = some row := by
    cases c with
    | query q =>
      rcases rows.statements answered with ⟨⟨e, rfl⟩, -⟩ | ⟨rfl, -⟩
      · obtain ⟨_, _, _, ⟨⟩⟩ | ⟨_, _, ⟨⟩⟩ := Exchange.changes_cases changed
      · exact Store.live_of_changes changed
    | _ => obtain ⟨_, _, _, ⟨⟩⟩ | ⟨_, _, ⟨⟩⟩ := Exchange.changes_cases changed
  obtain ⟨row, found⟩ := found
  obtain ⟨same, live⟩ := Store.isTarget_iff.mp (List.find?_some found)
  rw [first.not_live_of_deleted rows second distinct present deleted
    (List.mem_of_find?_eq_some found) same] at live
  cases live

/-- Where identifiers are distinct, no statement reads a row under the identifier of a deleted one
for a page. -/
theorem Runs.not_listed_of_deleted (rows : around.KeepsRows) (run : Runs r around mid acts t)
    (distinct : (t.world.store.statuses.map Status.id).Nodup)
    (present : mid.world.store.statuses[i]? = some s) (deleted : s.deletedAt ≠ none) {k : Nat}
    {e : Exchange} (member : .exchange k e ∈ acts) {row : Status} (listed : row ∈ e.pageRows) :
    row.id ≠ s.id := by
  intro same
  obtain ⟨front, back, rfl⟩ := List.append_of_mem member
  obtain ⟨before, first, second⟩ := run.split
  obtain ⟨world, answered⟩ := second.answered
  obtain ⟨c, answer⟩ := e
  have found : row ∈ before.world.store.statuses ∧ row.isLive = true := by
    cases c with
    | query q =>
      rcases rows.statements answered with ⟨⟨e, rfl⟩, -⟩ | ⟨rfl, -⟩
      · cases q <;> exact absurd listed List.not_mem_nil
      · exact Store.live_of_pageRows listed
    | _ => exact absurd listed List.not_mem_nil
  obtain ⟨there, live⟩ := found
  rw [first.not_live_of_deleted rows second distinct present deleted there same] at live
  cases live

/-- A request that arrives later has had no answer before. -/
theorem Runs.not_answered_before {k : Nat} {operation : Operation}
    (start : Runs r around (idle w) past mid) (onward : Runs r around mid future t)
    (arrives : .arrive k operation ∈ future) (e : Exchange) : .exchange k e ∉ past := by
  intro member
  obtain ⟨front, back, rfl⟩ := List.append_of_mem arrives
  obtain ⟨point, _, first, step, -⟩ := onward.cut
  have given : mid.arrived ≤ k := by
    cases step with
    | arrive => exact first.arrived_le
  obtain ⟨-, silent, -⟩ := start.orderly.unused k given
  rw [← mem_transcript, silent] at member
  cases member

/-- A request under the identifier of a deleted row succeeds only with a change from before. -/
theorem Runs.changed_before (rows : around.KeepsRows) (start : Runs r around (idle w) past mid)
    (onward : Runs r around mid future t)
    (distinct : (t.world.store.statuses.map Status.id).Nodup)
    (present : mid.world.store.statuses[i]? = some s) (deleted : s.deletedAt ≠ none) {k : Nat}
    {operation : Operation} {a : operation.Result} (target : operation.target? = some s.id)
    (finished : .finish k operation (.ok a) ∈ future) :
    ∃ e, .exchange k e ∈ past ∧ e.changes s.id := by
  obtain ⟨front, back, rfl⟩ := List.append_of_mem finished
  have run := start.trans onward
  rw [← List.append_assoc] at run
  obtain ⟨-, leads⟩ := run.finish_leads
  obtain ⟨e, member, changed⟩ := (r.conduct leads).succeeds s.id a target rfl
  rcases List.mem_append.mp (mem_transcript.mp member) with before | later
  · exact ⟨e, before, changed⟩
  · exact absurd changed (onward.not_changes_of_deleted rows distinct present deleted
      (List.mem_append_left _ later))

/-- Where identifiers are distinct, a deleted row is closed. -/
theorem Runs.closed (rows : around.KeepsRows) (start : Runs r around (idle w) past mid)
    (onward : Runs r around mid future t)
    (distinct : (t.world.store.statuses.map Status.id).Nodup)
    (present : mid.world.store.statuses[i]? = some s) (deleted : s.deletedAt ≠ none) :
    Closed past future s.id where
  changes _ _ _ target finished := start.changed_before rows onward distinct present deleted target
    finished
  refuses := by
    intro k operation a target arrives finished
    obtain ⟨e, before, -⟩ :=
      start.changed_before rows onward distinct present deleted target finished
    exact start.not_answered_before onward arrives e before
  lists := by
    intro k operation a arrives finished row listed
    obtain ⟨front, back, split⟩ := List.append_of_mem finished
    have run := start.trans onward
    rw [split, ← List.append_assoc] at run
    obtain ⟨-, leads⟩ := run.finish_leads
    obtain ⟨e, member, read⟩ := (r.conduct leads).lists a rfl row listed
    rcases List.mem_append.mp (mem_transcript.mp member) with before | later
    · exact absurd before (start.not_answered_before onward arrives e)
    · have member : .exchange k e ∈ future := by
        rw [split]
        exact List.mem_append_left _ later
      exact onward.not_listed_of_deleted rows distinct present deleted member read

end Traffic

/-- The history of the rows of a table, over every run of requests side by side in which rows change
only through statements. A row keeps its place and descends from what it was; a place that was
vacant holds a row that was inserted; whatever was written was written by one request that succeeds,
with its values and in its caller's name; and where identifiers are distinct, a deleted row is
closed for good. -/
theorem rows_have_history (r : Registry) {around : Surroundings} (rows : around.KeepsRows)
    {w : World} {past future : List Act} {mid t : Traffic}
    (start : Runs r around (idle w) past mid) (onward : Runs r around mid future t) :
    (∀ (i : Nat) s, mid.world.store.statuses[i]? = some s →
      ∃ s', t.world.store.statuses[i]? = some s' ∧ Descends future s s') ∧
    (∀ (i : Nat) s, mid.world.store.statuses[i]? = none → t.world.store.statuses[i]? = some s →
      Inserted future s) ∧
    Accountable (past ++ future) ∧
    ((t.world.store.statuses.map Status.id).Nodup →
      ∀ (i : Nat) s, mid.world.store.statuses[i]? = some s → s.deletedAt ≠ none →
        Closed past future s.id) := by
  refine ⟨?_, ?_, (start.trans onward).accountable, ?_⟩
  · intro i s present
    exact onward.descends rows present
  · intro i s vacant present
    exact onward.inserted rows vacant present
  · intro distinct i s present deleted
    exact start.closed rows onward distinct present deleted

open Sample in
/-- An updated row keeps its place and descends from what it was. -/
theorem updated_row_has_history : ∃ t, Runs registry .reliable (idle world) plainUpdate t ∧
    (∃ s, t.world.store.statuses[0]? = some s ∧ Descends plainUpdate row s) ∧
    Accountable plainUpdate := by
  obtain ⟨t, run, -, -⟩ := runs_plainUpdate
  obtain ⟨descends, -, accountable, -⟩ :=
    rows_have_history registry Surroundings.reliable_keepsRows .refl run
  exact ⟨t, run, descends 0 row rfl, accountable⟩

end StatusRegistry
