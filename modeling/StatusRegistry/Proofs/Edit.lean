import StatusRegistry.Proofs.Contest.Fate
import StatusRegistry.Proofs.Conversation

/-!
# Edits of a status

An update and a deletion go through the same checks in the same order: the caller, the input, the
row, its creator. The first check that is not passed decides how the edit ends, and nothing has been
written then. An edit that passes all of them rewrites its row and no other.
-/

namespace StatusRegistry

open Program (Leads)
open Registry (Service counting finding guarded removing retiring revising)
open Store (isTarget rewritten)

namespace World

variable {α : Type} {w after : World} {a : α} {s : Store}

/-- A program that runs alone is answered to its end, and none of its statements fails. -/
def Grants (w : World) : Program α → Prop
  | .done _ => True
  | .call c next => ∃ answer after, w.Answers c answer after ∧ ¬Exchange.failed ⟨c, answer⟩ ∧
      after.Grants (next answer)

/-- A program that runs alone ends with a value and leaves a store. -/
def Ends (w : World) (p : Program α) (a : α) (s : Store) : Prop :=
  (w.run p).value = some a ∧ (w.run p).world.store = s

/-- A program goes on with the answer to its call. -/
theorem ends_call {c : Call} {next : c.Answer → Program α} {answer : c.Answer}
    (given : w.Answers c answer after) (ends : after.Ends (next answer) a s) :
    w.Ends (.call c next) a s := by
  obtain ⟨events, given⟩ := given
  simp only [Ends, run, given]
  exact ends

/-- A call that is no statement leaves the store as it is. -/
theorem Answers.store_eq {c : Call} {answer : c.Answer} (given : w.Answers c answer after)
    (other : isStatement c = false) : after.store = w.store := by
  rcases given.of_other other with rfl | rfl <;> rfl

/-- A statement that is granted is performed, and the program goes on from there. -/
theorem Grants.performs {q : Statement} {next : Call.Answer (.query q) → Program α}
    (grants : w.Grants (.call (.query q) next)) :
    ∃ result, ∃ after : World, (w.store.perform q).1 = .ok result ∧
      after.store = (w.store.perform q).2 ∧ after.Grants (next (.ok result)) ∧
      ∀ a s, after.Ends (next (.ok result)) a s → w.Ends (.call (.query q) next) a s := by
  obtain ⟨answer, after, given, works, rest⟩ := grants
  cases answer with
  | error e => exact absurd trivial works
  | ok result =>
    obtain ⟨⟨_, ⟨⟩⟩, -⟩ | ⟨executed, rfl⟩ := given.of_query
    obtain ⟨e, refused⟩ | performed := w.store.execute_cases q
    · rw [refused] at executed
      cases executed
    · rw [performed] at executed given rest
      exact ⟨result, _, executed.symm, rfl, rest, fun a s ends => ends_call given ends⟩

/-- The removal of a cached copy ends in success, however it is answered, and leaves the store as it
is. -/
theorem ends_retiring (w : World) (id : Uuid) (a : α) :
    w.Ends (retiring id a) (.ok a) w.store := by
  have given : w.Answers (.cacheDelete (cacheKey id)) (w.answerDelete (cacheKey id)).2.1
      (w.answerDelete (cacheKey id)).2.2 := ⟨_, rfl⟩
  refine ends_call given ?_
  rw [← given.store_eq rfl]
  cases (w.answerDelete (cacheKey id)).2.1 with
  | ok _ => exact ⟨rfl, rfl⟩
  | error e => exact ends_call ⟨_, rfl⟩ ⟨rfl, rfl⟩

/-- A lookup that is granted finds no live row and ends, or finds one and goes on with it. -/
theorem Grants.finds {id : Uuid} {next : Status → Service α} (grants : w.Grants (finding id next)) :
    (w.store.live id = none ∧
      w.Ends (finding id next) (.error (Failure.statusNotFound id)) w.store) ∨
    ∃ row, w.store.live id = some row ∧ w.Grants (next row) ∧
      ∀ result s, w.Ends (next row) result s → w.Ends (finding id next) result s := by
  obtain ⟨answer, after, given, works, rest⟩ := grants
  cases answer with
  | error e => exact absurd trivial works
  | ok result =>
    obtain ⟨⟨_, ⟨⟩⟩, -⟩ | ⟨executed, rfl⟩ := given.of_query
    have found : w.store.live id = result := (Except.ok.inj executed).symm
    cases result with
    | none => exact .inl ⟨found, ends_call given ⟨rfl, rfl⟩⟩
    | some row => exact .inr ⟨row, found, rest, fun result s ends => ends_call given ends⟩

end World

/-- An edit of a status: new content, or its deletion. -/
inductive Edit where
  | update (revision : Revision)
  | delete

namespace Edit

/-- What an edit gives if nothing fails. -/
def Result : Edit → Type
  | .update _ => Status
  | .delete => Unit

/-- The program that serves an edit. -/
def serve (r : Registry) (caller : Caller) (id : Uuid) : (edit : Edit) → Service edit.Result
  | .update revision => r.serve (.update caller id revision)
  | .delete => r.serve (.delete caller id)

/-- The input of an edit is within its bounds. A deletion has none. -/
def IsSound : Edit → Prop
  | .update revision => 1 ≤ revision.description.length ∧ revision.description.length ≤ 255
  | .delete => True

/-- A row after an edit. -/
def apply (now : Instant) (user : Uuid) : Edit → Status → Status
  | .update revision, row =>
    { row with
      description := revision.description
      active := revision.active
      orderNumber := revision.orderNumber
      updatedBy := user
      updatedAt := now }
  | .delete, row => { row with deletedAt := some now, updatedAt := now }

/-- What is told about the row after an edit. -/
def tell : (edit : Edit) → Status → edit.Result
  | .update _, row => row
  | .delete, _ => ()

/-- The statement that makes an edit. -/
def statement (id user : Uuid) : Edit → Statement
  | .update revision => .updateStatus id user revision
  | .delete => .deleteStatus id

/-- What an edit does once its checks are passed. -/
def core (id user : Uuid) : (edit : Edit) → Service edit.Result
  | .update revision => revising id user revision
  | .delete => removing id

/-- How an edit ends is decided by the first check that it does not pass. -/
structure IsDecided (edit : Edit) (r : Registry) (s : Store) (caller : Caller) (id : Uuid)
    (result : Except Failure edit.Result) : Prop where
  unauthorized : result = .error (Failure.unauthorized "No caller identity") ↔
    caller.user = Uuid.nil
  invalid : result = .error (Failure.invalidFields
      [("description", "description is required and must be at most 255 characters")]) ↔
    caller.user ≠ Uuid.nil ∧ ¬edit.IsSound
  notFound : result = .error (Failure.statusNotFound id) ↔
    caller.user ≠ Uuid.nil ∧ edit.IsSound ∧ s.live id = none
  forbidden : result = .error (Failure.notOwner id) ↔
    caller.user ≠ Uuid.nil ∧ edit.IsSound ∧
      ∃ row, s.live id = some row ∧ r.enforceOwnership = true ∧ row.createdBy ≠ caller.user
  accepted : (∃ a, result = .ok a) ↔
    caller.user ≠ Uuid.nil ∧ edit.IsSound ∧
      ∃ row, s.live id = some row ∧ (r.enforceOwnership = true → row.createdBy = caller.user)

/-- What an accepted edit leaves in the store: the row that was live as the edit makes it, and
everything else as it was. -/
structure Takes (edit : Edit) (user id : Uuid) (before after : Store) (a : edit.Result) : Prop where
  /-- What is told is the row that was live, edited. -/
  told : ∃ old, before.live id = some old ∧ a = edit.tell (edit.apply before.now user old)
  /-- No row but live ones with the identifier differs. -/
  rows : after.statuses = rewritten id (edit.apply before.now user) before.statuses
  /-- Where identifiers are distinct, that is the one row. -/
  place : (before.statuses.map Status.id).Nodup → ∀ (i : Nat) old, before.statuses[i]? = some old →
    isTarget id old = true →
    after.statuses = before.statuses.set i (edit.apply before.now user old)
  /-- Updated rows stay live, deleted ones do not. -/
  stored : after.live id = match edit with
    | .update _ => (before.live id).map (edit.apply before.now user)
    | .delete => none
  /-- Nothing but the rows and the clock differs. -/
  rest : after = { before with statuses := after.statuses }.tick

variable {edit : Edit} {r : Registry} {caller : Caller} {id user : Uuid} {α : Type} {a : α}

/-- An edit by nobody is refused at once. -/
theorem serve_of_nobody (r : Registry) (id : Uuid) (edit : Edit) (nobody : caller.user = Uuid.nil) :
    edit.serve r caller id = .done (.error (Failure.unauthorized "No caller identity")) := by
  have unidentified : caller.identified = .error (Failure.unauthorized "No caller identity") := by
    simp [Caller.identified, Uuid.isNil, nobody]
  cases edit with
  | update revision =>
    rw [serve, Registry.serve_update, unidentified]
    rfl
  | delete =>
    rw [serve, Registry.serve_delete, unidentified]
    rfl

/-- An edit by somebody whose input is out of bounds is refused at once. -/
theorem serve_of_unsound (r : Registry) (id : Uuid) (named : caller.user ≠ Uuid.nil)
    (unsound : ¬edit.IsSound) : edit.serve r caller id = .done (.error (Failure.invalidFields
      [("description", "description is required and must be at most 255 characters")])) := by
  have identified : caller.identified = .ok caller.user := by
    simp [Caller.identified, Uuid.isNil, named]
  cases edit with
  | update revision =>
    have refused : revision.validate = .error (Failure.invalidFields
        [("description", "description is required and must be at most 255 characters")]) := by
      rw [Revision.validate, descriptionProblem]
      exact congrArg checkFields (if_neg unsound)
    rw [serve, Registry.serve_update, identified]
    simp only [refused]
    rfl
  | delete => exact absurd trivial unsound

/-- An edit by somebody whose input is within its bounds looks the row up and goes on with its
creator. -/
theorem serve_of_sound (r : Registry) (id : Uuid) (named : caller.user ≠ Uuid.nil)
    (sound : edit.IsSound) : edit.serve r caller id =
      finding id fun existing => r.guarded caller.user existing (edit.core id caller.user) := by
  have identified : caller.identified = .ok caller.user := by
    simp [Caller.identified, Uuid.isNil, named]
  cases edit with
  | update revision =>
    have accepted : revision.validate = .ok () := by
      rw [Revision.validate, descriptionProblem]
      exact congrArg checkFields (if_pos sound)
    rw [serve, Registry.serve_update, identified]
    simp only [accepted]
    rfl
  | delete =>
    rw [serve, Registry.serve_delete, identified]
    rfl

/-- The guard lets the creator of a row pass, and everybody where ownership is not enforced. -/
theorem guarded_of_allowed {α : Type} {row : Status} {rest : Service α}
    (allowed : r.enforceOwnership = true → row.createdBy = user) :
    r.guarded user row rest = rest := by
  have passes : r.checkOwner row user = .ok () := by
    simpa [Registry.checkOwner, Status.isOwnedBy] using allowed
  rw [guarded, passes]

/-- Once the checks are passed, the only statement of an edit is its own. -/
theorem statement_of_leads {past : List Exchange} {q : Statement}
    {next : Call.Answer (.query q) → Service edit.Result}
    (here : Leads (edit.core id user) past (.call (.query q) next)) : q = edit.statement id user := by
  have silent : ∀ {a : edit.Result} {later : List Exchange},
      ¬Leads (retiring id a) later (.call (.query q) next) := by
    intro a later retires
    unfold retiring at retires
    cases retires with
    | @ask _ _ answer _ _ onward =>
      rcases answer with e | ⟨⟩
      · cases onward with
        | ask ended => cases ended.of_done.2
      · cases onward
  cases edit with
  | update revision =>
    unfold core revising at here
    cases here with
    | here => rfl
    | @ask _ _ answer _ _ onward =>
      rcases answer with e | (_ | s)
      · cases (Leads.of_done onward).2
      · cases (Leads.of_done onward).2
      · exact absurd onward silent
  | delete =>
    unfold core removing at here
    cases here with
    | here => rfl
    | @ask _ _ answer _ _ onward =>
      rcases answer with e | (n : Nat)
      · cases (Leads.of_done onward).2
      · by_cases zero : n = 0
        · simp only [if_pos zero] at onward
          cases (Leads.of_done onward).2
        · simp only [if_neg zero] at onward
          exact absurd onward silent

section Decisions

variable {s : Store} {row : Status}

/-- An edit by nobody is decided by the check of its caller. -/
theorem IsDecided.of_nobody (nobody : caller.user = Uuid.nil) :
    edit.IsDecided r s caller id (.error (Failure.unauthorized "No caller identity")) := by
  constructor <;> simp [nobody, Failure.unauthorized, Failure.withReason, Failure.invalidFields,
    Failure.statusNotFound, Failure.notOwner]

/-- An edit whose input is out of bounds is decided by the check of the input. -/
theorem IsDecided.of_unsound (named : caller.user ≠ Uuid.nil) (unsound : ¬edit.IsSound) :
    edit.IsDecided r s caller id (.error (Failure.invalidFields
      [("description", "description is required and must be at most 255 characters")])) := by
  constructor <;> simp [named, unsound, Failure.unauthorized, Failure.withReason,
    Failure.invalidFields, Failure.statusNotFound, Failure.notOwner]

/-- An edit without a row is decided by the lookup. -/
theorem IsDecided.of_missing (named : caller.user ≠ Uuid.nil) (sound : edit.IsSound)
    (missing : s.live id = none) :
    edit.IsDecided r s caller id (.error (Failure.statusNotFound id)) := by
  constructor <;> simp [named, sound, missing, Failure.unauthorized, Failure.withReason,
    Failure.invalidFields, Failure.statusNotFound, Failure.notOwner]

/-- An edit by a stranger is decided by the check of the creator. -/
theorem IsDecided.of_stranger (named : caller.user ≠ Uuid.nil) (sound : edit.IsSound)
    (found : s.live id = some row) (enforced : r.enforceOwnership = true)
    (stranger : row.createdBy ≠ caller.user) :
    edit.IsDecided r s caller id (.error (Failure.notOwner id)) := by
  constructor <;> simp [named, sound, found, enforced, stranger, Failure.unauthorized,
    Failure.withReason, Failure.invalidFields, Failure.statusNotFound, Failure.notOwner]

/-- An edit that passes every check is accepted. -/
theorem IsDecided.of_passed (named : caller.user ≠ Uuid.nil) (sound : edit.IsSound)
    (found : s.live id = some row)
    (allowed : r.enforceOwnership = true → row.createdBy = caller.user) (a : edit.Result) :
    edit.IsDecided r s caller id (.ok a) where
  unauthorized := by simp [named]
  invalid := by simp [sound]
  notFound := by simp [found]
  forbidden := by simpa [found] using fun _ _ => allowed
  accepted := ⟨fun _ => ⟨named, sound, row, found, allowed⟩, fun _ => ⟨a, rfl⟩⟩

end Decisions

section Ends

variable {w after : World} {s : Store} {old : Status} {result : Except Failure edit.Result}

/-- An update that is granted and finds a live row ends with the row as it makes it. -/
theorem takes_update {revision : Revision} (grants : w.Grants (revising id user revision))
    (found : w.store.live id = some old) :
    ∃ a s, w.Ends (revising id user revision) (.ok a) s ∧
      (update revision).Takes user id w.store s a := by
  obtain ⟨answer, after, executed, left, -, ends⟩ := grants.performs
  rw [Store.perform_updateStatus, found] at executed
  cases executed
  refine ⟨_, _, ends _ _ (after.ends_retiring id _), ?_⟩
  rw [left]
  exact {
    told := ⟨old, found, rfl⟩
    rows := rfl
    place := fun distinct i row present target => Store.rewritten_eq_set distinct present target
    stored := Store.find?_rewritten w.store.statuses
      (Store.isTarget_revised w.store.now user id revision)
    rest := rfl }

/-- A deletion that is granted and finds a live row ends in success. -/
theorem takes_delete (grants : w.Grants (removing id)) (found : w.store.live id = some old) :
    ∃ a s, w.Ends (removing id) (.ok a) s ∧ delete.Takes user id w.store s a := by
  obtain ⟨(n : Nat), after, executed, left, -, ends⟩ := grants.performs
  have changed : n ≠ 0 := by
    obtain rfl : w.store.statuses.countP (isTarget id) = n := Except.ok.inj executed
    exact Nat.ne_of_gt (List.countP_pos_iff.mpr
      ⟨old, List.mem_of_find?_eq_some found, List.find?_some found⟩)
  have ended : w.Ends (removing id) (.ok ()) after.store := by
    refine ends _ _ ?_
    simp only [if_neg changed]
    exact after.ends_retiring id ()
  refine ⟨(), _, ended, ?_⟩
  rw [left]
  exact {
    told := ⟨old, found, rfl⟩
    rows := rfl
    place := fun distinct i row present target => Store.rewritten_eq_set distinct present target
    stored := Store.find?_deleted id w.store.now w.store.statuses
    rest := rfl }

/-- An edit that is granted and has passed its checks is accepted. -/
theorem takes_core (grants : w.Grants (edit.core id user)) (found : w.store.live id = some old) :
    ∃ a s, w.Ends (edit.core id user) (.ok a) s ∧ edit.Takes user id w.store s a := by
  cases edit with
  | update revision => exact takes_update grants found
  | delete => exact takes_delete grants found

/-- What an edit executes: nothing before its input has been checked, then the lookup of the row, and
its own statement only if all checks are passed. -/
theorem executed_cases {q : Statement}
    (member : .executed q ∈ (w.run (edit.serve r caller id)).events) :
    caller.user ≠ Uuid.nil ∧ edit.IsSound ∧
      (q = .findStatus id ∨ q = edit.statement id caller.user ∧ ∃ row, w.store.live id = some row ∧
        (r.enforceOwnership = true → row.createdBy = caller.user)) := by
  by_cases nobody : caller.user = Uuid.nil
  · rw [serve_of_nobody r id edit nobody] at member
    cases member
  by_cases sound : edit.IsSound
  · refine ⟨nobody, sound, ?_⟩
    rw [serve_of_sound r id nobody sound] at member
    obtain ⟨past, next, world, happened, converses, leads⟩ := World.run_executed member
    obtain ⟨-, asks⟩ | ⟨row, later, rfl, onward⟩ | ⟨_, _, -, -, ended⟩ :=
      Registry.leads_finding leads
    · cases asks
      exact .inl rfl
    · obtain ⟨passes, inside⟩ | ⟨_, -, -, ended⟩ := Registry.leads_guarded onward
      · refine .inr ⟨statement_of_leads inside, row, ?_, fun enforced =>
          Registry.checkOwner_ok enforced passes⟩
        cases converses with
        | ask answered _ =>
          obtain ⟨⟨_, ⟨⟩⟩, -⟩ | ⟨executed, -⟩ := World.Answers.of_query ⟨_, answered⟩
          exact (Except.ok.inj executed).symm
      · cases ended
    · cases ended
  · rw [serve_of_unsound r id nobody sound] at member
    cases member

end Ends

/-- An edit goes through its checks in a fixed order, and the first one that it does not pass decides
how it ends. If none of its statements fails, it is refused as that check says and the store is as it
was, or it is accepted and the store is as it was but for the row. Whatever fails, no statement runs
before the caller and the input have been checked, and the statement that writes runs only if the row
is there and its creator may be the caller. -/
theorem edit_is_decided_by_checks (edit : Edit) (r : Registry) (w : World) (caller : Caller)
    (id : Uuid) :
    (w.Grants (edit.serve r caller id) → ∃ result s, w.Ends (edit.serve r caller id) result s ∧
      edit.IsDecided r w.store caller id result ∧
      (∀ failure, result = .error failure → s = w.store) ∧
      ∀ a, result = .ok a → edit.Takes caller.user id w.store s a) ∧
    ∀ q, .executed q ∈ (w.run (edit.serve r caller id)).events →
      caller.user ≠ Uuid.nil ∧ edit.IsSound ∧
      (q = .findStatus id ∨ q = edit.statement id caller.user ∧ ∃ row, w.store.live id = some row ∧
        (r.enforceOwnership = true → row.createdBy = caller.user)) := by
  refine ⟨fun grants => ?_, fun _ => executed_cases⟩
  by_cases nobody : caller.user = Uuid.nil
  · rw [serve_of_nobody r id edit nobody]
    exact ⟨_, _, ⟨rfl, rfl⟩, .of_nobody nobody, fun _ _ => rfl, by rintro _ ⟨⟩⟩
  by_cases sound : edit.IsSound
  · rw [serve_of_sound r id nobody sound] at grants ⊢
    obtain ⟨missing, ends⟩ | ⟨row, found, grants, ends⟩ := grants.finds
    · exact ⟨_, _, ends, .of_missing nobody sound missing, fun _ _ => rfl, by rintro _ ⟨⟩⟩
    by_cases allowed : r.enforceOwnership = true → row.createdBy = caller.user
    · rw [guarded_of_allowed allowed] at grants
      obtain ⟨a, s, inside, takes⟩ := takes_core grants found
      refine ⟨_, s, ends _ _ ?_, .of_passed nobody sound found allowed a, ?_, ?_⟩
      · rw [guarded_of_allowed allowed]
        exact inside
      · rintro _ ⟨⟩
      · rintro _ ⟨⟩
        exact takes
    · obtain ⟨enforced, stranger⟩ := Classical.not_imp.mp allowed
      obtain rfl : row.id = id := (Store.isTarget_iff.mp (List.find?_some found)).1
      refine ⟨_, _, ends _ _ ?_, .of_stranger nobody sound found enforced stranger,
        fun _ _ => rfl, by rintro _ ⟨⟩⟩
      rw [guarded, Registry.checkOwner_error enforced stranger]
      exact ⟨rfl, rfl⟩
  · rw [serve_of_unsound r id nobody sound]
    exact ⟨_, _, ⟨rfl, rfl⟩, .of_unsound nobody sound, fun _ _ => rfl, by rintro _ ⟨⟩⟩

open Sample in
/-- The creator of a status gives it new content where ownership is enforced: the update is accepted,
and the status now stored is what it gives. -/
theorem new_content_is_stored :
    world.Grants ((update revision).serve ⟨300, true⟩ ⟨owner⟩ row.id) ∧
    ∃ s, world.Ends ((update revision).serve ⟨300, true⟩ ⟨owner⟩ row.id) (.ok revised) s ∧
      s.live row.id = some revised := by
  have named : (⟨owner⟩ : Caller).user ≠ Uuid.nil := by decide
  have sound : (update revision).IsSound := by
    constructor <;> decide
  have grants : world.Grants ((update revision).serve ⟨300, true⟩ ⟨owner⟩ row.id) := by
    rw [serve_of_sound ⟨300, true⟩ row.id named sound]
    refine ⟨.ok (some row), world, ⟨_, rfl⟩, id, ?_⟩
    exact ⟨.ok (some revised), _, answers_revision.2, id, .ok (), _, ⟨_, rfl⟩, id, trivial⟩
  refine ⟨grants, ?_⟩
  obtain ⟨result, s, ends, decided, -, takes⟩ :=
    (edit_is_decided_by_checks (update revision) ⟨300, true⟩ world ⟨owner⟩ row.id).1 grants
  obtain ⟨a, rfl⟩ := decided.accepted.mpr ⟨named, sound, row, rfl, fun _ => rfl⟩
  obtain ⟨old, found, rfl⟩ := (takes a rfl).told
  cases found
  exact ⟨s, ends, (takes _ rfl).stored⟩

end Edit

end StatusRegistry
