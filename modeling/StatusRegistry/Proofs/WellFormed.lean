import StatusRegistry.Proofs.Course
import StatusRegistry.Proofs.History

/-!
# Well-formed rows

A request reaches a statement that writes a row only with values that passed their validation and in
the name of a caller that is somebody, and the statement dates the row by the clock. So where the
clock never goes back, every row of the table keeps to the bounds of its columns and its dates keep
their order, whatever statements fail and however the requests interleave.
-/

namespace StatusRegistry

open Program (Leads)
open Registry (Service)
open Store (rewritten)
open Traffic

namespace Instant

/-- An instant is no later than another that is not before it. -/
instance : LE Instant := ⟨fun s t => t.before s = false⟩

/-- Instants are ordered by their seconds and, within a second, by their nanoseconds. -/
theorem le_iff {s t : Instant} :
    s ≤ t ↔ s.seconds < t.seconds ∨ s.seconds = t.seconds ∧ s.nanos ≤ t.nanos := by
  show t.before s = false ↔ _
  simp only [before, Bool.or_eq_false_iff, Bool.and_eq_false_imp, decide_eq_false_iff_not,
    decide_eq_true_eq]
  omega

/-- Time is a preorder. -/
instance : Preorder Instant where
  le_refl t := le_iff.mpr (.inr ⟨rfl, le_refl t.nanos⟩)
  le_trans s t u first second := by
    rw [le_iff] at first second ⊢
    omega

/-- A later reading of a clock is a later instant. -/
theorem ofMicros_mono {a b : Int} (later : a ≤ b) : ofMicros a ≤ ofMicros b := by
  rw [le_iff]
  simp only [ofMicros]
  omega

end Instant

/-- A row that keeps to the bounds of its columns, names who created and last changed it, and has
its dates in order. -/
structure Status.IsWellFormed (s : Status) : Prop where
  name : 1 ≤ s.name.length ∧ s.name.length ≤ 36
  description : 1 ≤ s.description.length ∧ s.description.length ≤ 255
  createdBy : s.createdBy ≠ Uuid.nil
  updatedBy : s.updatedBy ≠ Uuid.nil
  createdAt : s.createdAt ≤ s.updatedAt
  deletedAt : s.deletedAt = none ∨ s.deletedAt = some s.updatedAt

/-- A store whose rows are well-formed and bear no later date than its clock. -/
def Store.IsWellFormed (s : Store) : Prop :=
  ∀ row ∈ s.statuses, row.IsWellFormed ∧ row.updatedAt ≤ s.now

/-- A statement that writes nothing but values within the bounds of the columns, in the name of
somebody. -/
def Statement.IsProper : Statement → Prop
  | .createStatus draft owner =>
    (1 ≤ draft.name.length ∧ draft.name.length ≤ 36) ∧
      (1 ≤ draft.description.length ∧ draft.description.length ≤ 255) ∧ owner ≠ Uuid.nil
  | .updateStatus _ updater revision =>
    (1 ≤ revision.description.length ∧ revision.description.length ≤ 255) ∧ updater ≠ Uuid.nil
  | _ => True

/-- A name is accepted exactly within its bounds. -/
theorem nameProblem_eq_nil_iff {name : String} :
    nameProblem name = [] ↔ 1 ≤ name.length ∧ name.length ≤ 36 := by
  unfold nameProblem maxNameLength
  split <;> simp_all

/-- A description is accepted exactly within its bounds. -/
theorem descriptionProblem_eq_nil_iff {description : String} :
    descriptionProblem description = [] ↔
      1 ≤ description.length ∧ description.length ≤ 255 := by
  unfold descriptionProblem maxDescriptionLength
  split <;> simp_all

/-- Fields are accepted if there is nothing to say about any. -/
theorem checkFields_ok_iff {problems : List (String × String)} :
    checkFields problems = .ok () ↔ problems = [] := by
  cases problems <;> simp [checkFields]

/-- A draft is valid if its name and its description are within their bounds. -/
theorem Draft.validate_ok_iff {draft : Draft} :
    draft.validate = .ok () ↔ (1 ≤ draft.name.length ∧ draft.name.length ≤ 36) ∧
      (1 ≤ draft.description.length ∧ draft.description.length ≤ 255) := by
  rw [Draft.validate, checkFields_ok_iff, List.append_eq_nil_iff, nameProblem_eq_nil_iff,
    descriptionProblem_eq_nil_iff]

/-- A revision is valid if its description is within its bounds. -/
theorem Revision.validate_ok_iff {revision : Revision} :
    revision.validate = .ok () ↔
      1 ≤ revision.description.length ∧ revision.description.length ≤ 255 := by
  rw [Revision.validate, checkFields_ok_iff, descriptionProblem_eq_nil_iff]

/-- A creation that is about to make a statement has a valid draft. -/
theorem Registry.valid_of_creation {r : Registry} {caller : Caller} {draft : Draft}
    {past : List Exchange} {q : Statement} {next : Call.Answer (.query q) → Service Status}
    (here : Leads (r.serve (.create caller draft)) past (.call (.query q) next)) :
    draft.validate = .ok () := by
  rw [serve_create] at here
  cases identity : caller.identified with
  | error failure =>
    rw [identity] at here
    cases here
  | ok user =>
    rw [identity] at here
    cases valid : draft.validate with
    | error failure =>
      simp only [valid] at here
      cases here
    | ok _ => rfl

/-- Whatever a request asks of the store is proper. -/
theorem Registry.isProper_of_leads {r : Registry} {operation : Operation} {past : List Exchange}
    {q : Statement} {next : Call.Answer (.query q) → Service operation.Result}
    (here : Leads (r.serve operation) past (.call (.query q) next)) : q.IsProper := by
  cases q with
  | createStatus draft owner =>
    obtain ⟨caller, identity, asks⟩ := Registry.asks_of_writes rfl here
    cases asks
    obtain ⟨name, description⟩ := Draft.validate_ok_iff.mp (valid_of_creation here)
    exact ⟨name, description, identified_ne identity⟩
  | updateStatus id user revision =>
    obtain ⟨caller, change, identity⟩ := Registry.isChange_of_target rfl here
    obtain ⟨_, rfl, rfl⟩ := (r.conduct here).revises _ _ _ _ rfl
    cases change with
    | update valid => exact ⟨Revision.validate_ok_iff.mp valid, identified_ne identity⟩
  | _ => trivial

/-- Whatever is asked of the store in a run is proper. -/
theorem Traffic.Runs.isProper {r : Registry} {around : Surroundings} {w : World} {t : Traffic}
    {acts : List Act} (run : Runs r around (idle w) acts t) {k : Nat} {q : Statement}
    {answer : Except StoreError q.Result} (asked : .exchange k ⟨.query q, answer⟩ ∈ acts) :
    q.IsProper := by
  obtain ⟨past, future, rfl⟩ := List.append_of_mem asked
  obtain ⟨_, _, -, leads⟩ := run.exchange_leads
  exact Registry.isProper_of_leads leads

namespace Store

/-- The columns have room for a valid draft. -/
theorem lengthProblem_of_valid_draft {draft : Draft} (valid : draft.validate = .ok ())
    (owner : Uuid) : lengthProblem (.createStatus draft owner) = none := by
  obtain ⟨⟨-, name⟩, ⟨-, description⟩⟩ := Draft.validate_ok_iff.mp valid
  have fits : ¬draft.name.length > maxNameLength := not_lt_of_ge name
  have described : ¬draft.description.length > maxDescriptionLength := not_lt_of_ge description
  rw [lengthProblem, if_neg fits, if_neg described]

/-- The columns have room for a valid revision. -/
theorem lengthProblem_of_valid_revision {revision : Revision} (valid : revision.validate = .ok ())
    (id updater : Uuid) : lengthProblem (.updateStatus id updater revision) = none := by
  have described : ¬revision.description.length > maxDescriptionLength :=
    not_lt_of_ge (Revision.validate_ok_iff.mp valid).2
  rw [lengthProblem, if_neg described]

/-- The columns have room for the values of a proper statement. -/
theorem lengthProblem_of_isProper {q : Statement} (proper : q.IsProper) :
    lengthProblem q = none := by
  cases q with
  | createStatus draft owner =>
    exact lengthProblem_of_valid_draft (Draft.validate_ok_iff.mpr ⟨proper.1, proper.2.1⟩) owner
  | updateStatus id user revision =>
    exact lengthProblem_of_valid_revision (Revision.validate_ok_iff.mpr proper.1) id user
  | _ => rfl

/-- A statement whose values are acceptable is not refused for a length. -/
theorem perform_ne_tooLong (s : Store) (q : Statement) (n : Nat) :
    (s.perform q).1 ≠ .error (tooLong n) := by
  have violated : ∀ name, violates name ≠ tooLong n := by
    intro name same
    injection same with code
    exact absurd code (by decide)
  cases q with
  | createToken name digest user =>
    simp only [perform, tokenProblem]
    split
    · rename_i problem found
      rintro ⟨⟩
      split at found
      · exact violated _ (Option.some.inj found)
      · split at found
        · exact violated _ (Option.some.inj found)
        · cases found
    · intro same
      cases same
  | countMigrations =>
    simp only [perform]
    split
    · intro same
      cases same
    · intro same
      injection same with same
      injection same with code
      exact absurd code (by decide)
  | _ =>
    intro same
    cases same

/-- No store refuses a statement for the length of a value that its columns have room for. -/
theorem execute_ne_tooLong (s : Store) {q : Statement} (fits : lengthProblem q = none) (n : Nat) :
    (s.execute q).1 ≠ .error (tooLong n) := by
  unfold execute valueProblem
  split
  · rename_i problem found
    intro same
    injection same with same
    rw [fits] at found
    split at found
    · cases found
      injection same with code
      exact absurd code (by decide)
    · cases found
  · exact s.perform_ne_tooLong q n

/-- What stands at a place of the table after a proper statement. -/
inductive Leaves (s : Store) (i : Nat) : Status → Prop where
  | kept {row : Status} (present : s.statuses[i]? = some row) : Leaves s i row
  | inserted {draft : Draft} {owner : Uuid} (vacant : s.statuses[i]? = none)
      (proper : (Statement.createStatus draft owner).IsProper) :
      Leaves s i (s.newStatus draft owner)
  | revised {row : Status} {id updater : Uuid} {revision : Revision}
      (present : s.statuses[i]? = some row) (live : row.deletedAt = none)
      (proper : (Statement.updateStatus id updater revision).IsProper) :
      Leaves s i (Store.revised s.now updater revision row)
  | deleted {row : Status} (present : s.statuses[i]? = some row) :
      Leaves s i (Store.deleted s.now row)

/-- A proper statement leaves nothing else. -/
theorem leaves_execute (s : Store) {q : Statement} (proper : q.IsProper) {i : Nat} {row : Status}
    (found : (s.execute q).2.statuses[i]? = some row) : s.Leaves i row := by
  obtain ⟨e, refused⟩ | performed := s.execute_cases q
  · rw [refused] at found
    exact .kept found
  rw [performed, perform_statuses] at found
  cases q with
  | createStatus draft owner =>
    rw [rowsAfter] at found
    rcases Nat.lt_or_ge i s.statuses.length with within | beyond
    · rw [List.getElem?_append_left within] at found
      exact .kept found
    · rw [List.getElem?_append_right beyond] at found
      obtain rfl := List.mem_singleton.mp (List.mem_of_getElem? found)
      exact .inserted (List.getElem?_eq_none_iff.mpr beyond) proper
  | updateStatus id updater revision =>
    rw [rowsAfter] at found
    obtain same | ⟨before, present, target, changed⟩ := rewritten_cases id _ s.statuses i
    · exact .kept (same.symm.trans found)
    · cases changed.symm.trans found
      exact .revised present (deletedAt_of_isTarget target).2 proper
  | deleteStatus id =>
    rw [rowsAfter] at found
    obtain same | ⟨before, present, -, changed⟩ := rewritten_cases id _ s.statuses i
    · exact .kept (same.symm.trans found)
    · cases changed.symm.trans found
      exact .deleted present
  | _ => exact .kept found

variable {s : Store} {i : Nat} {row : Status}

/-- What a proper statement leaves in a well-formed store is well-formed, and bears no later date
than the clock did. -/
theorem Leaves.isWellFormed (leaves : s.Leaves i row) (sound : s.IsWellFormed) :
    row.IsWellFormed ∧ row.updatedAt ≤ s.now := by
  cases leaves with
  | kept present => exact sound row (List.mem_of_getElem? present)
  | inserted vacant proper =>
    obtain ⟨name, description, somebody⟩ := proper
    exact ⟨⟨name, description, somebody, somebody, le_refl _, .inl rfl⟩, le_refl _⟩
  | @revised before _ _ _ present live proper =>
    obtain ⟨description, somebody⟩ := proper
    obtain ⟨wellFormed, dated⟩ := sound before (List.mem_of_getElem? present)
    exact ⟨⟨wellFormed.name, description, wellFormed.createdBy, somebody,
      wellFormed.createdAt.trans dated, .inl live⟩, le_refl _⟩
  | @deleted before present =>
    obtain ⟨wellFormed, dated⟩ := sound before (List.mem_of_getElem? present)
    exact ⟨⟨wellFormed.name, wellFormed.description, wellFormed.createdBy, wellFormed.updatedBy,
      wellFormed.createdAt.trans dated, .inr rfl⟩, le_refl _⟩

/-- What a proper statement leaves in the place of a row of a well-formed store was not changed
before that row was. -/
theorem Leaves.updatedAt_le (leaves : s.Leaves i row) (sound : s.IsWellFormed) {before : Status}
    (present : s.statuses[i]? = some before) : before.updatedAt ≤ row.updatedAt := by
  have dated := (sound before (List.mem_of_getElem? present)).2
  cases leaves with
  | kept still =>
    cases present.symm.trans still
    exact le_refl _
  | inserted vacant =>
    rw [present] at vacant
    cases vacant
  | revised => exact dated
  | deleted => exact dated

end Store

/-- Surroundings in which the clock of the store never goes back. -/
def Surroundings.timely (around : Surroundings) : Surroundings where
  answers w c answer after :=
    around.answers w c answer after ∧ w.store.clock ≤ after.store.clock
  drifts w after := around.drifts w after ∧ w.store.clock ≤ after.store.clock

/-- The clock says nothing of how rows change. -/
theorem Surroundings.KeepsRows.timely {around : Surroundings} (rows : around.KeepsRows) :
    around.timely.KeepsRows where
  statements answered := rows.statements answered.1
  others answered := rows.others answered.1
  drifts drifted := rows.drifts drifted.1

namespace Traffic

variable {r : Registry} {around : Surroundings} {w : World} {t mid after : Traffic}
  {acts past future : List Act} {act : Act}

/-- A step in which whatever is asked of the store is proper leaves nothing in the table but what a
proper statement leaves. -/
theorem Step.leaves (rows : around.KeepsRows) (next : Step r around t act after)
    (proper : ∀ k q answer, act = .exchange k ⟨.query q, answer⟩ → q.IsProper) {i : Nat}
    {row : Status} (found : after.world.store.statuses[i]? = some row) :
    t.world.store.Leaves i row := by
  cases next with
  | @exchange k _ c _ answer world _ answered =>
    have found : world.store.statuses[i]? = some row := found
    cases c with
    | query q =>
      rcases rows.statements answered with ⟨-, same⟩ | ⟨-, same⟩
      · rw [same] at found
        exact .kept found
      · rw [same] at found
        exact Store.leaves_execute _ (proper k q answer rfl) found
    | _ =>
      rw [rows.others answered rfl] at found
      exact .kept found
  | drift drifted =>
    have found : (World.store _).statuses[i]? = some row := found
    rw [rows.drifts drifted] at found
    exact .kept found
  | _ => exact .kept found

/-- A step of timely surroundings does not turn the clock back. -/
theorem Step.now_le (next : Step r around.timely t act after) :
    t.world.store.now ≤ after.world.store.now := by
  cases next with
  | exchange _ answered => exact Instant.ofMicros_mono answered.2
  | drift drifted => exact Instant.ofMicros_mono drifted.2
  | _ => exact le_refl _

/-- The step after a run leaves nothing but what a proper statement leaves. -/
theorem Runs.leaves (rows : around.KeepsRows) (run : Runs r around (idle w) acts t)
    (next : Step r around t act after) {i : Nat} {row : Status}
    (found : after.world.store.statuses[i]? = some row) : t.world.store.Leaves i row := by
  have longer : Runs r around (idle w) (acts ++ [act]) after := .step run next
  refine next.leaves rows ?_ found
  rintro k q answer rfl
  exact longer.isProper (List.mem_append_right acts (List.mem_singleton.mpr rfl))

/-- A store stays well-formed in every run. -/
theorem Runs.isWellFormed (rows : around.KeepsRows) (sound : w.store.IsWellFormed)
    (run : Runs r around.timely (idle w) acts t) : t.world.store.IsWellFormed := by
  induction run with
  | refl => exact sound
  | step prior next inductionHypothesis =>
    intro row member
    obtain ⟨i, found⟩ := List.mem_iff_getElem?.mp member
    have leaves := prior.leaves rows.timely next found
    obtain ⟨wellFormed, dated⟩ := leaves.isWellFormed inductionHypothesis
    exact ⟨wellFormed, dated.trans next.now_le⟩

/-- No row of a run bears an earlier date of its last change than before. -/
theorem Runs.updatedAt_le (rows : around.KeepsRows) (sound : w.store.IsWellFormed)
    (start : Runs r around.timely (idle w) past mid) (onward : Runs r around.timely mid future t)
    {i : Nat} {s : Status} (present : mid.world.store.statuses[i]? = some s) :
    ∃ s', t.world.store.statuses[i]? = some s' ∧ s.updatedAt ≤ s'.updatedAt := by
  induction onward with
  | refl => exact ⟨s, present, le_refl _⟩
  | step prior next inductionHypothesis =>
    obtain ⟨middle, before, first⟩ := inductionHypothesis
    obtain ⟨s', now, -⟩ := (next.writes rows.timely).row before
    have run := start.trans prior
    have leaves := run.leaves rows.timely next now
    exact ⟨s', now, first.trans (leaves.updatedAt_le (run.isWellFormed rows sound) before)⟩

end Traffic

/-- Rows stay well-formed. In every run of requests side by side in which rows change only through
statements and the clock of the store never goes back, whatever fails: the rows of a table that is
well-formed at the start are well-formed at every point, no row bears an earlier date of its last
change than before, and the columns of no store refuse a statement that a request makes. They
refuse no statement with a draft or a revision that passes its validation. -/
theorem rows_stay_wellFormed (r : Registry) {around : Surroundings} (rows : around.KeepsRows)
    {w : World} {past future : List Act} {mid t : Traffic} (sound : w.store.IsWellFormed)
    (start : Runs r around.timely (idle w) past mid)
    (onward : Runs r around.timely mid future t) :
    t.world.store.IsWellFormed ∧
    (∀ (i : Nat) s, mid.world.store.statuses[i]? = some s →
      ∃ s', t.world.store.statuses[i]? = some s' ∧ s.updatedAt ≤ s'.updatedAt) ∧
    (∀ k q answer, .exchange k ⟨.query q, answer⟩ ∈ past ++ future →
      ∀ (s : Store) n, (s.execute q).1 ≠ .error (Store.tooLong n)) ∧
    (∀ draft owner, draft.validate = .ok () →
      ∀ (s : Store) n, (s.execute (.createStatus draft owner)).1 ≠ .error (Store.tooLong n)) ∧
    (∀ id updater revision, revision.validate = .ok () →
      ∀ (s : Store) n,
        (s.execute (.updateStatus id updater revision)).1 ≠ .error (Store.tooLong n)) := by
  have whole := start.trans onward
  refine ⟨whole.isWellFormed rows sound, ?_, ?_, ?_, ?_⟩
  · intro i s present
    exact start.updatedAt_le rows sound onward present
  · intro k q answer asked s n
    exact s.execute_ne_tooLong (Store.lengthProblem_of_isProper (whole.isProper asked)) n
  · intro draft owner valid s n
    exact s.execute_ne_tooLong (Store.lengthProblem_of_valid_draft valid owner) n
  · intro id updater revision valid s n
    exact s.execute_ne_tooLong (Store.lengthProblem_of_valid_revision valid id updater) n

namespace Sample

/-- The store of the sample world is well-formed. -/
theorem isWellFormed_store : world.store.IsWellFormed := by
  have somebody : owner ≠ Uuid.nil := by decide
  have dated : Instant.ofMicros world.store.clock = row.updatedAt := rfl
  rintro _ (_ | ⟨_, ⟨⟩⟩)
  exact ⟨⟨by decide, by decide, somebody, somebody, le_refl _, .inl rfl⟩, le_of_eq dated.symm⟩

open Traffic in
/-- The update is a run in which the clock does not go back. -/
theorem runs_timely : ∃ t, Runs registry Surroundings.reliable.timely (idle world) plainUpdate t := by
  refine ⟨?traffic, ?run⟩
  case run =>
    refine .cons .arrive ?_
    refine .cons (.exchange rfl ⟨⟨isSound, _, rfl⟩, le_refl _⟩) ?_
    refine .cons (.exchange rfl ⟨answers_revision, by decide⟩) ?_
    refine .cons (.exchange rfl ⟨⟨isSound, _, rfl⟩, le_refl _⟩) ?_
    refine .cons (.finish rfl) ?_
    exact .refl

end Sample

open Sample in
/-- A table with one row is well-formed before an update of the row and after it, and the row is
then dated no earlier. -/
theorem updated_row_stays_wellFormed : world.store.IsWellFormed ∧
    ∃ t, Runs registry Surroundings.reliable.timely (idle world) plainUpdate t ∧
      t.world.store.IsWellFormed ∧
      ∃ s, t.world.store.statuses[0]? = some s ∧ row.updatedAt ≤ s.updatedAt := by
  obtain ⟨t, run⟩ := runs_timely
  obtain ⟨wellFormed, later, -⟩ := rows_stay_wellFormed registry Surroundings.reliable_keepsRows
    isWellFormed_store .refl run
  exact ⟨isWellFormed_store, t, run, wellFormed, later 0 row rfl⟩

end StatusRegistry
