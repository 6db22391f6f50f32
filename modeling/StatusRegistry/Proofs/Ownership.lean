import Mathlib.Data.List.Nodup
import StatusRegistry.Proofs.Course
import StatusRegistry.Proofs.History

/-!
# Who changes a row

The creator of a row is compared with the caller at one call of the store, and the row is changed at
a later one that says nothing of creators. What other requests do in between cannot mislead the
comparison: no row ever changes its creator, and no identifier ever passes to another row. The
cache is asked nothing on the way, so nothing is assumed of it.
-/

namespace StatusRegistry

open Program (Leads)
open Store (rewritten)
open Traffic

variable {r : Registry} {around : Surroundings} {w : World} {before t after : Traffic}
  {past during acts : List Act} {act : Act} {id : Uuid} {k : Nat} {s : Status}

/-- A request is for a change of a row, and its caller is the one that created the row. -/
def ByCreator (acts : List Act) (k : Nat) (s : Status) : Prop :=
  ∃ caller operation, .arrive k operation ∈ acts ∧ operation.IsChange caller s.id ∧
    caller.user = s.createdBy

/-- A request makes no call but a lookup, and stands refused as soon as that is answered. -/
structure TurnedAway (acts : List Act) (t : Traffic) (k : Nat) (operation : Operation)
    (id : Uuid) : Prop where
  calls : ∀ e, .exchange k e ∈ acts → ∃ s, e = ⟨.query (.findStatus id), .ok (some s)⟩
  stands : ∀ request, t.requests k = some request →
    (transcript k acts = [] ∧ ∃ next, request = ⟨operation, .call (.query (.findStatus id)) next⟩) ∨
    request = ⟨operation, .done (.error (Failure.notOwner id))⟩
  ends : ∀ result, .finish k operation result ∈ acts → result = .error (Failure.notOwner id)

/-- A row is changed by a statement that is aimed at it. -/
theorem Writes.target_of_changed {rows rows' : List Status} (writes : Writes rows act rows')
    {i : Nat} (present : rows[i]? = some s) (changed : rows'[i]? ≠ some s) :
    ∃ k q answer, act = .exchange k ⟨.query q, answer⟩ ∧ q.target? = some s.id := by
  have aimed : ∀ (target : Uuid) (change : Status → Status),
      (rewritten target change rows)[i]? ≠ some s → s.id = target := by
    intro target change moved
    rw [getElem?_rewritten present] at moved
    by_cases hit : Store.isTarget target s = true
    · exact (Store.isTarget_iff.mp hit).1
    · rw [if_neg hit] at moved
      exact absurd rfl moved
  cases writes with
  | nothing => exact absurd present changed
  | insertion =>
    have within : i < rows.length := (List.getElem?_eq_some_iff.mp present).1
    exact absurd ((List.getElem?_append_left within).trans present) changed
  | @revision k target user revision now row =>
    obtain rfl := aimed target (Store.revised now user revision) changed
    exact ⟨k, _, _, rfl, rfl⟩
  | @deletion k target now n some =>
    obtain rfl := aimed target (Store.deleted now) changed
    exact ⟨k, _, _, rfl, rfl⟩

/-- Where identifiers are distinct, a live row is what a reader sees under its identifier. -/
theorem Store.live_eq {store : Store} (distinct : (store.statuses.map Status.id).Nodup)
    (member : s ∈ store.statuses) (live : s.isLive = true) : store.live s.id = some s := by
  have target : Store.isTarget s.id s = true := Store.isTarget_iff.mpr ⟨rfl, live⟩
  cases found : store.live s.id with
  | none => exact absurd target (List.find?_eq_none.mp found s member)
  | some row =>
    have same := (Store.isTarget_iff.mp (List.find?_some found)).1
    rw [List.inj_on_of_nodup_map distinct (List.mem_of_find?_eq_some found) member same]

namespace Traffic

/-- Where ownership is enforced and identifiers are distinct, a statement that is aimed at a row is
made by a request of its creator, whether or not it then finds the row. -/
theorem Runs.byCreator (enforced : r.enforceOwnership = true) (rows : around.KeepsRows)
    (start : Runs r around (idle w) past before)
    (distinct : (before.world.store.statuses.map Status.id).Nodup) {q : Statement}
    {answer : Except StoreError q.Result}
    (next : Step r around before (.exchange k ⟨.query q, answer⟩) after)
    (member : s ∈ before.world.store.statuses) (target : q.target? = some s.id) :
    ByCreator past k s := by
  cases next with
  | exchange waiting answered =>
    obtain ⟨arrived, leads⟩ := start.orderly.served k _ waiting
    obtain ⟨caller, found, change, looked, passes⟩ := Registry.guarded_of_target target leads
    refine ⟨caller, _, arrived, change, ?_⟩
    obtain ⟨front, back, rfl⟩ := List.append_of_mem (mem_transcript.mp looked)
    obtain ⟨moment, first, onward⟩ := start.split
    obtain ⟨_, lookup, -⟩ := onward.uncons
    have live := lookup.found_live rows
    obtain ⟨i, present⟩ := List.mem_iff_getElem?.mp (List.mem_of_find?_eq_some live)
    obtain ⟨now, still, descends⟩ := onward.descends rows present
    -- The row that the lookup found is still the only one with its identifier.
    have sameId : now.id = s.id :=
      descends.id.trans (Store.isTarget_iff.mp (List.find?_some live)).1
    obtain rfl := List.inj_on_of_nodup_map distinct (List.mem_of_getElem? still) member sameId
    rw [descends.createdBy]
    exact (Registry.checkOwner_ok enforced passes).symm

/-- While a row stays live, a lookup under its identifier that gets through finds it as it was
created. -/
theorem Runs.finds_live (rows : around.KeepsRows) (run : Runs r around before acts t)
    (distinct : (t.world.store.statuses.map Status.id).Nodup) {i : Nat} {s' : Status}
    (present : before.world.store.statuses[i]? = some s)
    (remains : t.world.store.statuses[i]? = some s') (live : s'.isLive = true)
    {answer : Except StoreError (Option Status)}
    (member : .exchange k ⟨.query (.findStatus s.id), answer⟩ ∈ acts) :
    (∃ e, answer = .error e) ∨
      ∃ found, answer = .ok (some found) ∧ found.id = s.id ∧ found.createdBy = s.createdBy := by
  obtain ⟨front, back, rfl⟩ := List.append_of_mem member
  obtain ⟨moment, first, second⟩ := run.split
  obtain ⟨found, there, descends⟩ := first.descends rows present
  have alive : found.isLive = true := by
    obtain ⟨_, last, further⟩ := second.descends rows there
    cases remains.symm.trans last
    refine Option.isNone_iff_eq_none.mpr (Classical.byContradiction fun deleted => ?_)
    rw [further.frozen deleted] at live
    exact deleted (Option.isNone_iff_eq_none.mp live)
  obtain ⟨_, answered⟩ := second.answered
  obtain ⟨-, failed | given⟩ := live_of_lookup rows answered
  · exact .inl failed
  · have apart := distinct.sublist (second.ids_remain rows).sublist
    rw [← descends.id, Store.live_eq apart (List.mem_of_getElem? there) alive] at given
    exact .inr ⟨found, given, descends.id, descends.createdBy⟩

/-- Where ownership is enforced and identifiers are distinct, a caller that did not create a row is
turned away from it, if the row stays live and the lookup does not fail. -/
theorem Runs.turnedAway (enforced : r.enforceOwnership = true) (rows : around.KeepsRows)
    {operation : Operation} {caller : Caller} {user : Uuid} {i : Nat} {s' : Status}
    (start : Runs r around (idle w) past before)
    (onward : Runs r around before (.arrive k operation :: during) t)
    (distinct : (t.world.store.statuses.map Status.id).Nodup)
    (change : operation.IsChange caller s.id) (identity : caller.identified = .ok user)
    (present : before.world.store.statuses[i]? = some s)
    (remains : t.world.store.statuses[i]? = some s') (live : s'.isLive = true)
    (other : s.createdBy ≠ user)
    (works : ∀ e, .exchange k ⟨.query (.findStatus s.id), .error e⟩ ∉ during) :
    TurnedAway during t k operation s.id := by
  have run := start.trans onward
  have own : ∀ acts, transcript k (past ++ .arrive k operation :: acts) = transcript k acts := by
    intro acts
    have silent : transcript k past = [] := by
      refine List.eq_nil_iff_forall_not_mem.mpr fun e member => ?_
      exact start.not_answered_before onward List.mem_cons_self e (mem_transcript.mp member)
    rw [transcript_append, silent, List.nil_append]
    rfl
  have course : ∀ {calls rest}, Leads (r.serve operation) calls rest →
      (∀ e ∈ calls, .exchange k e ∈ during) →
      (calls = [] ∧ ∃ next, rest = .call (.query (.findStatus s.id)) next) ∨
      ∃ found, calls = [⟨.query (.findStatus s.id), .ok (some found)⟩] ∧
        rest = .done (.error (Failure.notOwner s.id)) := by
    intro calls rest leads made
    refine Registry.refuses_others enforced change identity leads fun answer asked => ?_
    have member := List.mem_cons_of_mem (.arrive k operation) (made _ asked)
    obtain ⟨e, rfl⟩ | ⟨found, rfl, sameId, creator⟩ :=
      onward.finds_live rows distinct present remains live member
    · exact absurd (made _ asked) (works e)
    · exact ⟨found, rfl, sameId, creator ▸ other⟩
  constructor
  case calls =>
    intro e member
    obtain ⟨front, back, rfl⟩ := List.append_of_mem member
    have arrives : .arrive k operation ∈ past ++ .arrive k operation :: front := by simp
    rw [← List.cons_append, ← List.append_assoc] at run
    have ordered := run.orderly
    obtain ⟨_, _, arrived, leads⟩ := run.exchange_leads
    obtain rfl := ordered.unique k _ _ (List.mem_append_left _ arrived)
      (List.mem_append_left _ arrives)
    rw [own] at leads
    have made : ∀ e' ∈ transcript k front ++ [e],
        .exchange k e' ∈ front ++ .exchange k e :: back := by
      intro e' made
      rcases List.mem_append.mp made with earlier | now
      · exact List.mem_append_left _ (mem_transcript.mp earlier)
      · rw [List.mem_singleton.mp now]
        exact member
    obtain ⟨nothing, -⟩ | ⟨found, single, -⟩ := course (leads.snoc e.answer) made
    · exact absurd nothing (List.append_ne_nil_of_right_ne_nil _ (List.cons_ne_nil _ _))
    · have last : e ∈ [(⟨.query (.findStatus s.id), .ok (some found)⟩ : Exchange)] :=
        single ▸ List.mem_append_right _ List.mem_cons_self
      exact ⟨found, List.mem_singleton.mp last⟩
  case stands =>
    rintro ⟨other, rest⟩ served
    obtain ⟨arrived, leads⟩ := run.orderly.served k _ served
    obtain rfl : other = operation := run.orderly.unique k _ _ arrived (by simp)
    rw [own] at leads
    obtain ⟨nothing, next, rfl⟩ | ⟨found, single, rfl⟩ :=
      course leads fun e made => mem_transcript.mp made
    · exact .inl ⟨nothing, next, rfl⟩
    · exact .inr rfl
  case ends =>
    intro result finished
    obtain ⟨front, back, rfl⟩ := List.append_of_mem finished
    rw [← List.cons_append, ← List.append_assoc] at run
    obtain ⟨-, leads⟩ := run.finish_leads
    rw [own] at leads
    obtain ⟨-, _, ⟨⟩⟩ | ⟨_, -, ⟨⟩⟩ :=
      course leads fun e made => List.mem_append_left _ (mem_transcript.mp made)
    rfl

end Traffic

/-- Where ownership is enforced, rows change only at the hands of their creators, in every run of
requests side by side in which rows change only through statements. A statement that is aimed at a
row, and so every statement that changes one, is made by a request of the caller that created it. A
change of a row that stays live, asked for by another caller whose identity is known and with
content that may be stored, comes to nothing but its lookup, and if the lookup does not fail the
request is refused. -/
theorem ownership_is_enforced (r : Registry) (enforced : r.enforceOwnership = true)
    {around : Surroundings} (rows : around.KeepsRows) {w : World} {past : List Act}
    {before : Traffic} (start : Runs r around (idle w) past before)
    (distinct : (before.world.store.statuses.map Status.id).Nodup) :
    (∀ act after, Step r around before act after →
      (∀ k q answer, act = .exchange k ⟨.query q, answer⟩ →
        ∀ s ∈ before.world.store.statuses, q.target? = some s.id → ByCreator past k s) ∧
      ∀ (i : Nat) s, before.world.store.statuses[i]? = some s →
        after.world.store.statuses[i]? ≠ some s →
        ∃ k q answer, act = .exchange k ⟨.query q, answer⟩ ∧ q.target? = some s.id ∧
          ByCreator past k s) ∧
    ∀ k operation during t, Runs r around before (.arrive k operation :: during) t →
      (t.world.store.statuses.map Status.id).Nodup →
      ∀ (i : Nat) s s', before.world.store.statuses[i]? = some s →
        t.world.store.statuses[i]? = some s' → s'.isLive = true →
        ∀ caller user, operation.IsChange caller s.id → caller.identified = .ok user →
          s.createdBy ≠ user →
          (∀ e, .exchange k ⟨.query (.findStatus s.id), .error e⟩ ∉ during) →
          TurnedAway during t k operation s.id := by
  constructor
  · intro act after next
    have aimed : ∀ k q answer, act = .exchange k ⟨.query q, answer⟩ →
        ∀ s ∈ before.world.store.statuses, q.target? = some s.id → ByCreator past k s := by
      rintro k q answer rfl s member target
      exact start.byCreator enforced rows distinct next member target
    refine ⟨aimed, ?_⟩
    intro i s present changed
    obtain ⟨k, q, answer, made, target⟩ := (next.writes rows).target_of_changed present changed
    exact ⟨k, q, answer, made, target,
      aimed k q answer made s (List.mem_of_getElem? present) target⟩
  · intro k operation during t onward apart i s s' present remains live caller user change identity
      other works
    exact start.turnedAway enforced rows onward apart change identity present remains live other
      works

namespace Sample

/-- A registry that lets only creators change their statuses. -/
def strict : Registry := ⟨300, true⟩

/-- A user who has created nothing. -/
def stranger : Uuid := Uuid.ofOrdinal 8

/-- An update by the creator of the status, up to its lookup. -/
def updateBegins : List Act := [
  .arrive 0 (.update ⟨owner⟩ row.id revision),
  .exchange 0 ⟨.query (.findStatus row.id), .ok (some row)⟩]

/-- What a deletion by a stranger does after it has arrived. -/
def strangersDeletion : List Act := [
  .exchange 1 ⟨.query (.findStatus row.id), .ok (some row)⟩,
  .finish 1 (.delete ⟨stranger⟩ row.id) (.error (Failure.notOwner row.id))]

/-- The beginning of the update is a run, and the update stands before its change. -/
theorem runs_updateBegins : ∃ t, Runs strict .reliable (idle world) updateBegins t ∧
    t.world = world ∧ t.arrived = 1 ∧ ∃ next, t.requests 0 =
      some ⟨.update ⟨owner⟩ row.id revision,
        .call (.query (.updateStatus row.id owner revision)) next⟩ := by
  refine ⟨?traffic, ?run, ?world, ?arrived, ?next, ?waiting⟩
  case run =>
    refine .cons .arrive ?_
    refine .cons (.exchange rfl ⟨isSound, _, rfl⟩) ?_
    exact .refl
  case world => rfl
  case arrived => rfl
  case waiting => rfl

/-- The stranger's deletion is a run in the world as it was, and it leaves that world. -/
theorem runs_strangersDeletion {before : Traffic} (same : before.world = world)
    (given : before.arrived = 1) : ∃ t, Runs strict .reliable before
      (.arrive 1 (.delete ⟨stranger⟩ row.id) :: strangersDeletion) t ∧ t.world = world := by
  obtain ⟨_, requests, _⟩ := before
  obtain rfl : _ = world := same
  obtain rfl : _ = 1 := given
  refine ⟨?traffic, ?run, ?world⟩
  case run =>
    refine .cons .arrive ?_
    refine .cons (.exchange rfl ⟨isSound, _, rfl⟩) ?_
    refine .cons (.finish rfl) ?_
    exact .refl
  case world => rfl

end Sample

open Sample in
/-- A creator's update changes the status, and a stranger's deletion that comes just before the
change is turned away. -/
theorem stranger_is_turned_away : ∃ before after t,
    Runs strict .reliable (idle world) updateBegins before ∧
    Step strict .reliable before
      (.exchange 0 ⟨.query (.updateStatus row.id owner revision), .ok (some revised)⟩) after ∧
    after.world.store.statuses[0]? ≠ some row ∧ ByCreator updateBegins 0 row ∧
    Runs strict .reliable before (.arrive 1 (.delete ⟨stranger⟩ row.id) :: strangersDeletion) t ∧
    TurnedAway strangersDeletion t 1 (.delete ⟨stranger⟩ row.id) row.id := by
  obtain ⟨before, start, sameWorld, given, next, waiting⟩ := runs_updateBegins
  obtain ⟨t, onward, final⟩ := runs_strangersDeletion sameWorld given
  have changes : Step strict .reliable before
      (.exchange 0 ⟨.query (.updateStatus row.id owner revision), .ok (some revised)⟩) _ :=
    .exchange waiting (by rw [sameWorld]; exact answers_revision)
  have present : before.world.store.statuses[0]? = some row := by rw [sameWorld]; rfl
  have distinct : (before.world.store.statuses.map Status.id).Nodup := by
    rw [sameWorld]
    exact List.nodup_singleton _
  have apart : (t.world.store.statuses.map Status.id).Nodup := by
    rw [final]
    exact List.nodup_singleton _
  obtain ⟨creators, others⟩ :=
    ownership_is_enforced strict rfl Surroundings.reliable_keepsRows start distinct
  refine ⟨before, _, t, start, changes, ?_, ?_, onward, ?_⟩
  · show [revised][0]? ≠ some row
    decide
  · exact (creators _ _ changes).1 0 _ _ rfl row (List.mem_of_getElem? present) rfl
  · have remains : t.world.store.statuses[0]? = some row := by rw [final]; rfl
    refine others 1 _ _ t onward apart 0 row row present remains rfl ⟨stranger⟩ stranger .delete rfl
      (by decide) ?_
    · intro e member
      rcases List.mem_cons.mp member with now | later
      · cases now
      · cases List.mem_singleton.mp later

end StatusRegistry
