import StatusRegistry.Proofs.Operation
import StatusRegistry.Store

/-!
# What statements do to the rows

Every statement either leaves the rows as they are or is one of three: an insertion appends one row,
an update and a deletion rewrite the live rows that have an identifier and touch no other. A row is
followed through a run by its place in the table, and a reader sees the first live row that has the
identifier.
-/

namespace StatusRegistry.Store

/-- The live row that has an identifier. -/
def live (s : Store) (id : Uuid) : Option Status := s.statuses.find? (isTarget id)

/-- The rows of a table after every live one with an identifier has been changed. -/
def rewritten (id : Uuid) (change : Status → Status) (rows : List Status) : List Status :=
  rows.map fun row => if isTarget id row then change row else row

/-- The rows after a statement whose values are acceptable. -/
def rowsAfter (s : Store) : Statement → List Status
  | .createStatus draft owner => s.statuses ++ [s.newStatus draft owner]
  | .updateStatus id updater revision =>
    rewritten id (revised s.now updater revision) s.statuses
  | .deleteStatus id => rewritten id (deleted s.now) s.statuses
  | _ => s.statuses

/-- Only the three statements that change rows touch the table. -/
theorem perform_statuses (s : Store) (q : Statement) :
    (s.perform q).2.statuses = s.rowsAfter q := by
  cases q with
  | createToken name digest user =>
    simp only [perform]
    split <;> rfl
  | countMigrations =>
    simp only [perform]
    split <;> rfl
  | _ => rfl

/-- A statement is refused and changes nothing, or it is performed. -/
theorem execute_cases (s : Store) (q : Statement) :
    (∃ e, s.execute q = (.error e, s)) ∨ s.execute q = s.perform q := by
  unfold execute
  cases valueProblem q with
  | none => exact .inr rfl
  | some problem => exact .inl ⟨problem, rfl⟩

/-- A statement that succeeds does to the rows what it is for. -/
theorem statuses_of_ok {s : Store} {q : Statement} {result : q.Result}
    (succeeds : (s.execute q).1 = .ok result) : (s.execute q).2.statuses = s.rowsAfter q := by
  obtain ⟨e, refused⟩ | performed := s.execute_cases q
  · rw [refused] at succeeds
    cases succeeds
  · rw [performed, perform_statuses]

/-- A row is a target only under its own identifier. -/
theorem isTarget_iff {id : Uuid} {row : Status} :
    isTarget id row = true ↔ row.id = id ∧ row.isLive = true := by
  simp [isTarget]

/-- New content leaves a row a target of whatever it was a target of. -/
theorem isTarget_revised (now : Instant) (updater id : Uuid) (revision : Revision) (row : Status) :
    isTarget id (revised now updater revision row) = isTarget id row := rfl

/-- Rewriting the rows under one identifier does not show under another. -/
theorem find?_rewritten_of_ne {id other : Uuid} (change : Status → Status) (rows : List Status)
    (keeps : ∀ row, (change row).id = row.id) (ne : id ≠ other) :
    (rewritten id change rows).find? (isTarget other) = rows.find? (isTarget other) := by
  induction rows with
  | nil => rfl
  | cons row rows ih =>
    simp only [rewritten, List.map_cons, List.find?_cons]
    rw [rewritten] at ih
    by_cases target : isTarget id row = true
    · have same := (isTarget_iff.mp target).1
      have before : isTarget other row = false := by
        rw [Bool.eq_false_iff, ne_eq, isTarget_iff, same]
        exact fun both => ne both.1
      have after : isTarget other (change row) = false := by
        rw [Bool.eq_false_iff, ne_eq, isTarget_iff, keeps, same]
        exact fun both => ne both.1
      rw [if_pos target, before, after]
      exact ih
    · rw [if_neg target]
      cases isTarget other row with
      | true => rfl
      | false => exact ih

/-- A reader of rewritten rows sees the same row rewritten, if it is still live. -/
theorem find?_rewritten {id : Uuid} {change : Status → Status} (rows : List Status)
    (keeps : ∀ row, isTarget id (change row) = isTarget id row) :
    (rewritten id change rows).find? (isTarget id) =
      (rows.find? (isTarget id)).map change := by
  induction rows with
  | nil => rfl
  | cons row rows ih =>
    simp only [rewritten, List.map_cons, List.find?_cons]
    rw [rewritten] at ih
    by_cases target : isTarget id row = true
    · rw [if_pos target, keeps, target]
      rfl
    · rw [if_neg target, Bool.eq_false_iff.mpr target]
      exact ih

/-- An update gives what a reader then sees. -/
theorem perform_updateStatus (s : Store) (id updater : Uuid) (revision : Revision) :
    (s.perform (.updateStatus id updater revision)).1 =
      .ok ((s.live id).map (revised s.now updater revision)) := by
  have after := find?_rewritten s.statuses (isTarget_revised s.now updater id revision)
  exact congrArg Except.ok after

/-- A live row stays what a reader sees until a statement changes it. -/
theorem live_execute {s : Store} {id : Uuid} {row : Status} (found : s.live id = some row)
    (q : Statement) :
    (s.execute q).2.live id = some row ∨
      Exchange.changes id ⟨.query q, (s.execute q).1⟩ := by
  obtain ⟨e, refused⟩ | performed := s.execute_cases q
  · rw [refused]
    exact .inl found
  · rw [performed]
    unfold live
    rw [perform_statuses]
    cases q with
    | createStatus draft owner =>
      refine .inl ?_
      rw [rowsAfter, List.find?_append, ← live, found]
      rfl
    | updateStatus target updater revision =>
      by_cases same : target = id
      · subst same
        refine .inr ?_
        rw [perform_updateStatus, found]
        rfl
      · exact .inl ((find?_rewritten_of_ne (revised s.now updater revision) s.statuses
          (fun _ => rfl) same).trans found)
    | deleteStatus target =>
      by_cases same : target = id
      · subst same
        refine .inr ⟨rfl, ?_⟩
        have positive : 0 < s.statuses.countP (isTarget target) :=
          List.countP_pos_iff.mpr ⟨row, List.mem_of_find?_eq_some found, List.find?_some found⟩
        exact Nat.ne_of_gt positive
      · exact .inl ((find?_rewritten_of_ne (deleted s.now) s.statuses (fun _ => rfl) same).trans
          found)
    | _ => exact .inl found

/-- A statement changes a row only if a reader would have seen it. -/
theorem live_of_changes {s : Store} {q : Statement} {id : Uuid}
    (changed : Exchange.changes id ⟨.query q, (s.execute q).1⟩) : ∃ row, s.live id = some row := by
  obtain ⟨e, refused⟩ | performed := s.execute_cases q
  · rw [refused] at changed
    obtain ⟨_, _, _, ⟨⟩⟩ | ⟨_, _, ⟨⟩⟩ := Exchange.changes_cases changed
  · rw [performed] at changed
    cases q with
    | updateStatus target updater revision =>
      rw [perform_updateStatus] at changed
      cases found : s.live target with
      | none =>
        rw [found] at changed
        exact changed.elim
      | some row =>
        rw [found] at changed
        obtain rfl : target = id := changed
        exact ⟨row, found⟩
    | deleteStatus target =>
      obtain ⟨rfl, some⟩ : target = id ∧ s.statuses.countP (isTarget target) ≠ 0 := changed
      obtain ⟨row, member, hit⟩ := List.countP_pos_iff.mp (Nat.pos_of_ne_zero some)
      cases found : s.live target with
      | none => exact absurd hit (List.find?_eq_none.mp found row member)
      | some row => exact ⟨row, rfl⟩
    | _ => obtain ⟨_, _, _, ⟨⟩⟩ | ⟨_, _, ⟨⟩⟩ := Exchange.changes_cases changed

/-- Rewriting rows under an identifier that no live row has changes nothing. -/
theorem rewritten_of_absent {id : Uuid} {change : Status → Status} {rows : List Status}
    (absent : rows.find? (isTarget id) = none) : rewritten id change rows = rows := by
  refine (List.map_congr_left fun row member => ?_).trans (List.map_id rows)
  exact if_neg (List.find?_eq_none.mp absent row member)

/-- Where identifiers are distinct, no two places hold rows under the same one. -/
theorem place_eq {rows : List Status} (distinct : (rows.map Status.id).Nodup) {i j : Nat}
    {s s' : Status} (present : rows[i]? = some s) (other : rows[j]? = some s')
    (same : s.id = s'.id) : i = j := by
  have within : i < (rows.map Status.id).length := by
    rw [List.length_map]
    exact (List.getElem?_eq_some_iff.mp present).1
  refine (List.getElem?_inj within distinct).mp ?_
  rw [List.getElem?_map, List.getElem?_map, present, other, Option.map_some, Option.map_some, same]

/-- Where identifiers are distinct, rewriting the rows under one changes the one live row that has
it. -/
theorem rewritten_eq_set {id : Uuid} {change : Status → Status} {rows : List Status} {i : Nat}
    {row : Status} (distinct : (rows.map Status.id).Nodup) (present : rows[i]? = some row)
    (target : isTarget id row = true) : rewritten id change rows = rows.set i (change row) := by
  apply List.ext_getElem?
  intro j
  rw [rewritten, List.getElem?_map]
  have within : i < rows.length := (List.getElem?_eq_some_iff.mp present).1
  by_cases same : i = j
  · subst same
    rw [List.getElem?_set_self within, present, Option.map_some, if_pos target]
  · rw [List.getElem?_set_ne same]
    cases other : rows[j]? with
    | none => rfl
    | some s =>
      have missed : ¬isTarget id s = true := by
        intro hit
        have both : row.id = s.id := (isTarget_iff.mp target).1.trans (isTarget_iff.mp hit).1.symm
        exact same (place_eq distinct present other both)
      rw [Option.map_some, if_neg missed]

/-- A page holds only rows that it was made of. -/
theorem mem_of_mem_page {c : Collation} {rows : List Status} {order : Order}
    {offset limit : Int64} {row : Status} (member : row ∈ page c rows order offset limit) :
    row ∈ rows :=
  List.mem_mergeSort.mp (List.mem_of_mem_drop (List.mem_of_mem_take member))

/-- What a statement reads for a page are live rows. -/
theorem live_of_pageRows {s : Store} {q : Statement} {row : Status}
    (read : row ∈ Exchange.pageRows ⟨.query q, (s.execute q).1⟩) :
    row ∈ s.statuses ∧ row.isLive = true := by
  obtain ⟨e, refused⟩ | performed := s.execute_cases q
  · rw [refused] at read
    cases q <;> exact absurd read List.not_mem_nil
  · rw [performed] at read
    cases q with
    | pageFiltered filter order offset limit =>
      obtain ⟨member, passing⟩ := List.mem_filter.mp (mem_of_mem_page read)
      simp only [passes, Bool.and_eq_true] at passing
      exact ⟨member, passing.1.1.1.1⟩
    | pageMatching pattern order offset limit =>
      obtain ⟨member, passing⟩ := List.mem_filter.mp (mem_of_mem_page read)
      simp only [matchesPattern, Bool.and_eq_true] at passing
      exact ⟨member, passing.1⟩
    | _ => exact absurd read List.not_mem_nil

/-- A read issues no statement that changes rows. -/
theorem rowsAfter_of_get {r : Registry} {id : Uuid} {past : List Exchange} {q : Statement}
    {next : Call.Answer (.query q) → Registry.Service Status}
    (here : Program.Leads (r.serve (.get id)) past (.call (.query q) next)) (s : Store) :
    s.rowsAfter q = s.statuses := by
  have conduct := r.conduct here
  cases q with
  | createStatus draft owner =>
    obtain ⟨_, ⟨⟩, -⟩ := conduct.inserts _ _ _ rfl
  | updateStatus target updater revision =>
    obtain ⟨_, ⟨⟩, -⟩ := conduct.revises _ _ _ _ rfl
  | deleteStatus target =>
    obtain ⟨_, ⟨⟩⟩ := conduct.removes _ _ rfl
  | _ => rfl

end StatusRegistry.Store
