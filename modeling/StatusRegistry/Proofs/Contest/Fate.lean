import StatusRegistry.Proofs.Course
import StatusRegistry.Proofs.History

/-!
# The fate of a contested row

Requests that change one row run side by side. Each looks the row up before its own statement runs,
and others come in between. One step either leaves the row unhurt, with the content of the update
that came last, or deletes it for good: until a deletion no statement misses the row, and from it on
none changes it.
-/

namespace StatusRegistry

open Program (Leads)
open Store (rewritten)
open Traffic

variable {r : Registry} {around : Surroundings} {w : World} {t after : Traffic}
  {acts past future : List Act} {act : Act} {row s s' : Status} {rows : List Status}
  {id user : Uuid} {i k : Nat} {revision : Revision} {caller : Caller} {operation : Operation}

namespace Exchange

/-- Whether a statement about a row found no live row with its identifier. -/
def misses (id : Uuid) : Exchange → Prop
  | ⟨.query (.findStatus target), .ok none⟩ => target = id
  | ⟨.query (.updateStatus target _ _), .ok none⟩ => target = id
  | ⟨.query (.deleteStatus target), .ok (n : Nat)⟩ => target = id ∧ n = 0
  | _ => False

/-- Whether a statement failed. -/
def failed : Exchange → Prop
  | ⟨.query _, .error _⟩ => True
  | _ => False

/-- Only a statement about the row itself misses it. -/
theorem misses_cases {e : Exchange} (missed : e.misses id) :
    e = ⟨.query (.findStatus id), .ok none⟩ ∨
      (∃ user revision, e = ⟨.query (.updateStatus id user revision), .ok none⟩) ∨
      e = ⟨.query (.deleteStatus id), .ok (0 : Nat)⟩ := by
  unfold misses at missed
  split at missed
  · subst missed
    exact .inl rfl
  · subst missed
    exact .inr (.inl ⟨_, _, rfl⟩)
  · obtain ⟨rfl, rfl⟩ := missed
    exact .inr (.inr rfl)
  · exact missed.elim

end Exchange

namespace Registry

/-- A caller that may change a row may change any row of the same creator. -/
theorem checkOwner_of_createdBy (same : s'.createdBy = s.createdBy)
    (passes : r.checkOwner s user = .ok ()) : r.checkOwner s' user = .ok () := by
  have owned : s'.isOwnedBy user = s.isOwnedBy user := by simp only [Status.isOwnedBy, same]
  rw [checkOwner] at passes ⊢
  rw [owned]
  split at passes
  · cases passes
  · rename_i allowed
    exact if_neg allowed

variable {calls : List Exchange}

/-- Where no statement fails and the guard lets the caller pass, a change goes on to its core or its
lookup has missed the row. -/
theorem lookup_ends {α : Type} {core : Service α} {result : Except Failure α}
    (works : ∀ e ∈ calls, ¬e.failed)
    (admits : ∀ s, ⟨.query (.findStatus id), .ok (some s)⟩ ∈ calls → r.checkOwner s user = .ok ())
    (whole : Leads (finding id fun existing => r.guarded user existing core) calls
      (.done result)) :
    (∃ e later, calls = e :: later ∧ Leads core later (.done result)) ∨
      (∃ e ∈ calls, e.misses id) ∧ result = .error (Failure.statusNotFound id) := by
  unfold finding at whole
  cases whole with
  | @ask _ _ answer later _ onward =>
    rcases answer with e | (_ | s)
    · exact absurd trivial (works _ List.mem_cons_self)
    · obtain ⟨-, ended⟩ := Leads.of_done onward
      cases ended
      exact .inr ⟨⟨_, List.mem_cons_self, rfl⟩, rfl⟩
    · have passes := admits s List.mem_cons_self
      obtain ⟨-, inside⟩ | ⟨failure, check, -, -⟩ := leads_guarded onward
      · exact .inl ⟨_, later, rfl, inside⟩
      · rw [passes] at check
        cases check

/-- Where no statement fails and the guard lets the caller pass, an update ends with the row that
its statement rewrote, or because a statement missed the row. -/
theorem update_ends {result : Except Failure Status} (identity : caller.identified = .ok user)
    (valid : revision.validate = .ok ()) (works : ∀ e ∈ calls, ¬e.failed)
    (admits : ∀ s, ⟨.query (.findStatus id), .ok (some s)⟩ ∈ calls → r.checkOwner s user = .ok ())
    (whole : Leads (r.serve (.update caller id revision)) calls (.done result)) :
    (∃ s, ⟨.query (.updateStatus id user revision), .ok (some s)⟩ ∈ calls ∧ result = .ok s) ∨
      (∃ e ∈ calls, e.misses id) ∧ result = .error (Failure.statusNotFound id) := by
  rw [serve_update, identity] at whole
  simp only [valid] at whole
  obtain ⟨looked, later, rfl, onward⟩ | missed := lookup_ends works admits whole
  · unfold revising at onward
    cases onward with
    | @ask _ _ answer later _ onward =>
      rcases answer with e | (_ | s)
      · exact absurd trivial (works _ (List.mem_cons_of_mem _ List.mem_cons_self))
      · obtain ⟨-, ended⟩ := Leads.of_done onward
        cases ended
        exact .inr ⟨⟨_, List.mem_cons_of_mem _ List.mem_cons_self, rfl⟩, rfl⟩
      · obtain rfl | ⟨_, _, -, -, ends⟩ := leads_retiring onward
        · cases onward
        · exact .inl ⟨s, List.mem_cons_of_mem _ List.mem_cons_self, ends _ rfl⟩
  · exact .inr missed

/-- Where no statement fails and the guard lets the caller pass, a deletion ends in success after
its statement marked the row, or because a statement missed the row. -/
theorem delete_ends {result : Except Failure Unit} (identity : caller.identified = .ok user)
    (works : ∀ e ∈ calls, ¬e.failed)
    (admits : ∀ s, ⟨.query (.findStatus id), .ok (some s)⟩ ∈ calls → r.checkOwner s user = .ok ())
    (whole : Leads (r.serve (.delete caller id)) calls (.done result)) :
    (∃ n : Nat, n ≠ 0 ∧ ⟨.query (.deleteStatus id), .ok n⟩ ∈ calls ∧ result = .ok ()) ∨
      (∃ e ∈ calls, e.misses id) ∧ ∃ failure, failure.kind = .notFound ∧
        result = .error failure := by
  rw [serve_delete, identity] at whole
  obtain ⟨looked, later, rfl, onward⟩ | ⟨missed, ended⟩ := lookup_ends works admits whole
  · unfold removing at onward
    cases onward with
    | @ask _ _ answer later _ onward =>
      have asked : ⟨.query (.deleteStatus id), answer⟩ ∈
          looked :: ⟨.query (.deleteStatus id), answer⟩ :: later :=
        List.mem_cons_of_mem _ List.mem_cons_self
      rcases answer with e | (n : Nat)
      · exact absurd trivial (works _ asked)
      · by_cases zero : n = 0
        · subst zero
          obtain ⟨-, ended⟩ := Leads.of_done onward
          cases ended
          exact .inr ⟨⟨_, asked, rfl, rfl⟩, _, rfl, rfl⟩
        · simp only [if_neg zero] at onward
          obtain rfl | ⟨_, _, -, -, ends⟩ := leads_retiring onward
          · cases onward
          · exact .inl ⟨n, zero, asked, ends _ rfl⟩
  · exact .inr ⟨missed, _, rfl, ended⟩

end Registry

/-- An update of a row by the statement of a request: its ticket, the user it was made for, and what
it asked for. -/
structure Rewriting where
  ticket : Nat
  user : Uuid
  revision : Revision

/-- The update of a row that an act makes. -/
def Act.rewriting? (id : Uuid) : Act → Option Rewriting
  | .exchange k ⟨.query (.updateStatus target user revision), _⟩ =>
    if target = id then some ⟨k, user, revision⟩ else none
  | _ => none

/-- The updates of a row, in the order in which their statements ran. -/
def rewritings (id : Uuid) (acts : List Act) : List Rewriting := acts.filterMap (Act.rewriting? id)

/-- A row has the content that an update asked for. -/
structure Rewriting.Shows (x : Rewriting) (s : Status) : Prop where
  description : s.description = x.revision.description
  active : s.active = x.revision.active
  orderNumber : s.orderNumber = x.revision.orderNumber
  updatedBy : s.updatedBy = x.user

/-- After some updates a row has the content that the last of them asked for, or its first content
if there was none. -/
def HasLast (updates : List Rewriting) (first s : Status) : Prop :=
  match updates.getLast? with
  | some x => x.Shows s
  | none => s.description = first.description ∧ s.active = first.active ∧
      s.orderNumber = first.orderNumber ∧ s.updatedBy = first.updatedBy

/-- The updates of a row in a run that goes on. -/
theorem rewritings_snoc (id : Uuid) (acts : List Act) (act : Act) :
    rewritings id (acts ++ [act]) = rewritings id acts ++ (act.rewriting? id).toList := by
  rw [rewritings, List.filterMap_append]
  rfl

/-- An update of a row is a statement that asks for it. -/
theorem mem_rewritings {x : Rewriting} : x ∈ rewritings id acts ↔
    ∃ answer, .exchange x.ticket ⟨.query (.updateStatus id x.user x.revision), answer⟩ ∈ acts := by
  rw [rewritings, List.mem_filterMap]
  constructor
  · rintro ⟨act, member, found⟩
    unfold Act.rewriting? at found
    split at found
    · split at found
      · rename_i same
        cases found
        subst same
        exact ⟨_, member⟩
      · cases found
    · cases found
  · rintro ⟨answer, member⟩
    exact ⟨_, member, if_pos rfl⟩

/-- The first content is what a row has after no update. -/
theorem HasLast.first (s : Status) : HasLast [] s s := ⟨rfl, rfl, rfl, rfl⟩

/-- What was asked for last is what a row has. -/
theorem HasLast.snoc {updates : List Rewriting} {x : Rewriting} (shows : x.Shows s)
    (first : Status) : HasLast (updates ++ [x]) first s := by
  rw [HasLast, List.getLast?_append]
  exact shows

/-- What a row has is a matter of its content. -/
theorem HasLast.of_same {updates : List Rewriting} {first : Status} (last : HasLast updates first s)
    (description : s'.description = s.description) (active : s'.active = s.active)
    (orderNumber : s'.orderNumber = s.orderNumber) (updatedBy : s'.updatedBy = s.updatedBy) :
    HasLast updates first s' := by
  unfold HasLast at last ⊢
  split at last
  · rename_i x _
    obtain ⟨d, a, o, u⟩ := last
    exact ⟨description.trans d, active.trans a, orderNumber.trans o, updatedBy.trans u⟩
  · obtain ⟨d, a, o, u⟩ := last
    exact ⟨description.trans d, active.trans a, orderNumber.trans o, updatedBy.trans u⟩

/-- All requests of a run are updates and deletions of one row, by callers that may change it and
with content that may be stored. No statement fails, and no request is dropped. -/
structure Contest (r : Registry) (row : Status) (acts : List Act) : Prop where
  requests : ∀ k operation, .arrive k operation ∈ acts → ∃ caller,
    operation.IsChange caller row.id ∧ caller.identified = .ok caller.user ∧
      r.checkOwner row caller.user = .ok ()
  works : ∀ k e, .exchange k e ∈ acts → ¬e.failed
  undropped : ∀ k, .drop k ∉ acts

/-- No statement has missed a row or has been sent to delete it, and the row has the content of its
last update. -/
structure Unhurt (row : Status) (i : Nat) (acts : List Act) (rows : List Status) (s : Status) :
    Prop where
  present : rows[i]? = some s
  found : rows.find? (Store.isTarget row.id) = some s
  createdBy : s.createdBy = row.createdBy
  content : HasLast (rewritings row.id acts) row s
  met : ∀ k e, .exchange k e ∈ acts → ¬e.misses row.id
  undeleted : ∀ k answer, .exchange k ⟨.query (.deleteStatus row.id), answer⟩ ∉ acts

/-- A row has been deleted after some updates, and nothing has changed it since. -/
structure Buried (row : Status) (i : Nat) (front back : List Act) (rows : List Status)
    (s : Status) : Prop where
  present : rows[i]? = some s
  gone : rows.find? (Store.isTarget row.id) = none
  deleted : s.deletedAt ≠ none
  content : HasLast (rewritings row.id front) row s
  met : ∀ k e, .exchange k e ∈ front → ¬e.misses row.id
  undeleted : ∀ k answer, .exchange k ⟨.query (.deleteStatus row.id), answer⟩ ∉ front
  unchanged : ∀ k e, .exchange k e ∈ back → ¬e.changes row.id

/-- What has become of a contested row: nobody has deleted it, or one deletion has. -/
inductive Fate (row : Status) (i : Nat) (acts : List Act) (rows : List Status) : Prop where
  | unhurt {s : Status} (standing : Unhurt row i acts rows s)
  | buried {front back : List Act} {d n : Nat} {s : Status}
      (split : acts = front ++ .exchange d ⟨.query (.deleteStatus row.id), .ok n⟩ :: back)
      (some : n ≠ 0) (standing : Buried row i front back rows s)

namespace Contest

/-- What is so of a run was so of its beginning. -/
theorem front (contest : Contest r row (past ++ future)) : Contest r row past where
  requests k operation arrives := contest.requests k operation (List.mem_append_left _ arrives)
  works k e member := contest.works k e (List.mem_append_left _ member)
  undropped k dropped := contest.undropped k (List.mem_append_left _ dropped)

/-- A request makes idle statements, or it updates or deletes the contested row. -/
theorem statement (contest : Contest r row acts) {q : Statement} {past : List Exchange}
    {next : Call.Answer (.query q) → Registry.Service operation.Result}
    (arrives : .arrive k operation ∈ acts)
    (here : Leads (r.serve operation) past (.call (.query q) next)) :
    q.writes = false ∨ (∃ user revision, q = .updateStatus row.id user revision) ∨
      q = .deleteStatus row.id := by
  obtain ⟨caller, change, -, -⟩ := contest.requests k operation arrives
  cases writes : q.writes with
  | false => exact .inl rfl
  | true =>
    obtain ⟨_, -, asks⟩ := Registry.asks_of_writes writes here
    cases asks with
    | create => cases change
    | update =>
      cases change
      exact .inr (.inl ⟨_, _, rfl⟩)
    | delete =>
      cases change
      exact .inr (.inr rfl)

end Contest

/-- A statement that may not write leaves the rows as they are. -/
theorem Store.rowsAfter_of_reads (s : Store) {q : Statement} (reads : q.writes = false) :
    s.rowsAfter q = s.statuses := by
  cases q <;> first | rfl | cases reads

/-- No row is left to be seen once all live rows under an identifier are deleted. -/
theorem Store.find?_deleted (id : Uuid) (now : Instant) (rows : List Status) :
    (rewritten id (deleted now) rows).find? (isTarget id) = none := by
  refine List.find?_eq_none.mpr fun s member hit => ?_
  obtain ⟨before, -, rfl⟩ := List.mem_map.mp member
  by_cases target : isTarget id before = true
  · rw [if_pos target, isTarget_iff] at hit
    cases hit.2
  · rw [if_neg target] at hit
    exact target hit

namespace Unhurt

/-- A row stays unhurt by an act that leaves the rows as they are and does not miss it. -/
theorem idle (standing : Unhurt row i acts rows s) (quiet : act.rewriting? row.id = none)
    (undeleted : ∀ k answer, act ≠ .exchange k ⟨.query (.deleteStatus row.id), answer⟩)
    (met : ∀ k e, act = .exchange k e → ¬e.misses row.id) :
    Unhurt row i (acts ++ [act]) rows s where
  present := standing.present
  found := standing.found
  createdBy := standing.createdBy
  content := by
    rw [rewritings_snoc, quiet]
    simpa using standing.content
  met := by
    intro k e member
    rcases List.mem_append.mp member with before | now
    · exact standing.met k e before
    · exact met k e (List.mem_singleton.mp now).symm
  undeleted := by
    intro k answer member
    rcases List.mem_append.mp member with before | now
    · exact standing.undeleted k answer before
    · exact undeleted k answer (List.mem_singleton.mp now).symm

/-- A row stays unhurt by an update. -/
theorem revise (standing : Unhurt row i acts rows s) (k : Nat) (user : Uuid) (revision : Revision)
    (now : Instant) :
    Unhurt row i
      (acts ++ [.exchange k ⟨.query (.updateStatus row.id user revision),
        .ok (some (Store.revised now user revision s))⟩])
      (rewritten row.id (Store.revised now user revision) rows)
      (Store.revised now user revision s) where
  present := by
    rw [getElem?_rewritten standing.present, if_pos (List.find?_some standing.found)]
  found := by
    rw [Store.find?_rewritten rows (Store.isTarget_revised now user row.id revision),
      standing.found]
    rfl
  createdBy := standing.createdBy
  content := by
    have shows : Rewriting.Shows ⟨k, user, revision⟩ (Store.revised now user revision s) :=
      ⟨rfl, rfl, rfl, rfl⟩
    have last : Act.rewriting? row.id (.exchange k ⟨.query (.updateStatus row.id user revision),
        .ok (some (Store.revised now user revision s))⟩) = some ⟨k, user, revision⟩ := if_pos rfl
    rw [rewritings_snoc, last]
    exact .snoc shows row
  met := by
    intro j e member
    rcases List.mem_append.mp member with before | last
    · exact standing.met j e before
    · cases List.mem_singleton.mp last
      exact id
  undeleted := by
    intro j answer member
    rcases List.mem_append.mp member with before | last
    · exact standing.undeleted j answer before
    · cases List.mem_singleton.mp last

/-- An unhurt row is buried by a deletion. -/
theorem bury (standing : Unhurt row i acts rows s) (now : Instant) :
    Buried row i acts [] (rewritten row.id (Store.deleted now) rows) (Store.deleted now s) where
  present := by
    rw [getElem?_rewritten standing.present, if_pos (List.find?_some standing.found)]
  gone := Store.find?_deleted row.id now rows
  deleted := nofun
  content := standing.content.of_same rfl rfl rfl rfl
  met := standing.met
  undeleted := standing.undeleted
  unchanged := fun _ _ member => absurd member List.not_mem_nil

end Unhurt

/-- A buried row stays as it is under an act that does not change it. -/
theorem Buried.idle (standing : Buried row i past future rows s)
    (unchanged : ∀ k e, act = .exchange k e → ¬e.changes row.id) :
    Buried row i past (future ++ [act]) rows s :=
  { standing with
    unchanged := by
      intro k e member
      rcases List.mem_append.mp member with before | now
      · exact standing.unchanged k e before
      · exact unchanged k e (List.mem_singleton.mp now).symm }

/-- A run that has an act in it still has it when it goes on. -/
theorem snoc_split {cause : Act} (split : acts = past ++ cause :: future) (act : Act) :
    acts ++ [act] = past ++ cause :: (future ++ [act]) := by
  rw [split, List.append_assoc, List.cons_append]

namespace Fate

/-- What has become of the row after an act that leaves the rows as they are, is no statement that
writes, and does not miss the row where it is live. -/
theorem idle (fate : Fate row i acts rows)
    (calls : ∀ k q answer, act = .exchange k ⟨.query q, answer⟩ → q.writes = false)
    (met : ∀ k e, act = .exchange k e → rows.find? (Store.isTarget row.id) ≠ none →
      ¬e.misses row.id) :
    Fate row i (acts ++ [act]) rows := by
  have unchanged : ∀ k e, act = .exchange k e → ¬e.changes row.id := by
    rintro k e rfl changed
    obtain ⟨_, _, _, rfl⟩ | ⟨_, _, rfl⟩ := Exchange.changes_cases changed <;>
      cases calls k _ _ rfl
  cases fate with
  | unhurt standing =>
    refine .unhurt (standing.idle ?_ ?_ fun k e same => met k e same ?_)
    · unfold Act.rewriting?
      split
      · cases calls _ _ _ rfl
      · rfl
    · rintro k answer rfl
      cases calls k _ _ rfl
    · rw [standing.found]
      exact Option.some_ne_none _
  | buried split some standing => exact .buried (snoc_split split act) some (standing.idle unchanged)

/-- What has become of the row after a statement that does what the store does. -/
theorem execute {store : Store} {q : Statement} (fate : Fate row i acts store.statuses) (k : Nat)
    (works : ¬Exchange.failed ⟨.query q, (store.execute q).1⟩)
    (aimed : q.writes = false ∨ (∃ user revision, q = .updateStatus row.id user revision) ∨
      q = .deleteStatus row.id) :
    Fate row i (acts ++ [.exchange k ⟨.query q, (store.execute q).1⟩])
      (store.execute q).2.statuses := by
  obtain ⟨e, refused⟩ | performed := store.execute_cases q
  · rw [refused] at works
    exact absurd trivial works
  rw [performed, Store.perform_statuses]
  rcases aimed with reads | ⟨user, revision, rfl⟩ | rfl
  · rw [Store.rowsAfter_of_reads store reads]
    refine fate.idle ?_ ?_
    · rintro _ _ _ ⟨⟩
      exact reads
    · rintro _ _ ⟨⟩ alive missed
      generalize answered : (store.perform q).1 = answer at missed
      rcases Exchange.misses_cases missed with same | ⟨_, _, same⟩ | same
      · cases same
        exact alive (Except.ok.inj answered)
      · cases same
        cases reads
      · cases same
        cases reads
  · have answer := store.perform_updateStatus row.id user revision
    cases fate with
    | unhurt standing =>
      rw [Store.live, standing.found] at answer
      rw [answer]
      exact .unhurt (standing.revise k user revision store.now)
    | buried split some standing =>
      rw [Store.live, standing.gone] at answer
      rw [answer, Store.rowsAfter, Store.rewritten_of_absent standing.gone]
      refine .buried (snoc_split split _) some (standing.idle ?_)
      rintro _ _ ⟨⟩
      exact id
  · have answer : (store.perform (.deleteStatus row.id)).1 =
        .ok (store.statuses.countP (Store.isTarget row.id)) := rfl
    rw [answer]
    cases fate with
    | unhurt standing =>
      have positive : 0 < store.statuses.countP (Store.isTarget row.id) :=
        List.countP_pos_iff.mpr ⟨_, List.mem_of_find?_eq_some standing.found,
          List.find?_some standing.found⟩
      exact .buried rfl (Nat.ne_of_gt positive) (standing.bury store.now)
    | buried split some standing =>
      have nothing : store.statuses.countP (Store.isTarget row.id) = 0 :=
        List.countP_eq_zero.mpr (List.find?_eq_none.mp standing.gone)
      rw [nothing, Store.rowsAfter, Store.rewritten_of_absent standing.gone]
      refine .buried (snoc_split split _) some (standing.idle ?_)
      rintro _ _ ⟨⟩ changed
      exact changed.2 rfl

end Fate

namespace Traffic

/-- Every step of a contest keeps to the fate of its row. -/
theorem Step.fate (keeps : around.KeepsRows) (orderly : Orderly r acts t)
    (fate : Fate row i acts t.world.store.statuses) (next : Step r around t act after)
    (contest : Contest r row (acts ++ [act])) :
    Fate row i (acts ++ [act]) after.world.store.statuses := by
  have still : t.world.store.statuses = after.world.store.statuses →
      (∀ k q answer, act ≠ .exchange k ⟨.query q, answer⟩) →
      Fate row i (acts ++ [act]) after.world.store.statuses := by
    intro same silent
    rw [← same]
    refine fate.idle (fun k q answer made => absurd made (silent k q answer)) ?_
    rintro k e rfl - missed
    rcases Exchange.misses_cases missed with rfl | ⟨_, _, rfl⟩ | rfl <;> exact silent k _ _ rfl
  cases next with
  | @exchange k operation c _ answer world waiting answered =>
    cases c with
    | query q =>
      obtain ⟨arrives, leads⟩ := orderly.served k _ waiting
      have aimed := contest.statement (List.mem_append_left _ arrives) leads
      have works := contest.works k _ (List.mem_append_right _ List.mem_cons_self)
      obtain ⟨⟨e, rfl⟩, -⟩ | ⟨rfl, same⟩ := keeps.statements answered
      · exact absurd trivial works
      · show Fate row i _ world.store.statuses
        rw [same]
        exact fate.execute k works aimed
    | _ =>
      refine still (keeps.others answered rfl).symm ?_
      rintro _ _ _ ⟨⟩
  | drift drifted => exact still (keeps.drifts drifted).symm (by rintro _ _ _ ⟨⟩)
  | arrive => exact still rfl (by rintro _ _ _ ⟨⟩)
  | finish _ => exact still rfl (by rintro _ _ _ ⟨⟩)
  | drop _ => exact still rfl (by rintro _ _ _ ⟨⟩)

/-- What becomes of a contested row in a whole run. -/
theorem Runs.fate (keeps : around.KeepsRows) (run : Runs r around (idle w) acts t)
    (contest : Contest r row acts) (live : w.store.live row.id = some row)
    (present : w.store.statuses[i]? = some row) : Fate row i acts t.world.store.statuses := by
  induction run with
  | refl =>
    exact .unhurt
      { present := present, found := live, createdBy := rfl, content := .first row
        met := fun _ _ member => absurd member List.not_mem_nil
        undeleted := fun _ _ => List.not_mem_nil }
  | step prior next inductionHypothesis =>
    exact next.fate keeps prior.orderly (inductionHypothesis contest.front) contest

end Traffic

end StatusRegistry
