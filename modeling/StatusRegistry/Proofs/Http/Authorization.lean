import StatusRegistry.Proofs.Http.Headers
import StatusRegistry.Proofs.Http.Traces

/-!
# Writes are authenticated

Nothing is written to the table of statuses but for the user of an active token, by a request that
asks for it by its method and path. The life of a service is a sequence of visits; between them the
world may change as it likes as long as nobody else touches the statuses. So every row is as it was
at the start, or some visit of an authenticated user wrote it last.
-/

namespace StatusRegistry.Http

open Program (Leads)
open Conduct (isIdle)
open Store (isTarget)

/-- The token of a request is an active one of a user. -/
def ServerState.Knows (s : ServerState) (service : Service) (r : Request) (user : Uuid) : Prop :=
  ∃ raw, r.Bears raw ∧ s.world.store.Recognizes (Token.digestOf service.secret raw) user

/-- A request that was served, with the service before it and what was done for it. -/
structure Visit where
  before : ServerState
  request : Request
  served : Served

/-- What a life of a service consists of. -/
inductive Session (service : Service) (start : ServerState) : List Visit → ServerState → Prop where
  | refl : Session service start [] start
  | serve {visits : List Visit} {s : ServerState} {r : Request} {served : Served}
      (earlier : Session service start visits s) (serves : s.serve service r = some served) :
      Session service start (visits ++ [⟨s, r, served⟩]) served.state
  | lapse {visits : List Visit} {s : ServerState} {world : World}
      (earlier : Session service start visits s)
      (statuses : world.store.statuses = s.world.store.statuses) :
      Session service start visits { s with world := world }

/-- What a statement made in the name of a user makes of the row at one place. -/
inductive Authored (user : Uuid) : Statement → Option Status → Status → Prop where
  | created {draft : Draft} {row : Status} (createdBy : row.createdBy = user)
      (updatedBy : row.updatedBy = user) : Authored user (.createStatus draft user) none row
  | updated {id : Uuid} {revision : Revision} {row : Status} (now : Instant)
      (target : isTarget id row = true) :
      Authored user (.updateStatus id user revision) (some row) { row with
        description := revision.description
        active := revision.active
        orderNumber := revision.orderNumber
        updatedBy := user
        updatedAt := now }
  | deleted {id : Uuid} {row : Status} (now : Instant) (target : isTarget id row = true) :
      Authored user (.deleteStatus id) (some row) { row with
        deletedAt := some now
        updatedAt := now }

namespace Visit

variable (v : Visit) (service : Service)

/-- The statuses before a visit. -/
def found : List Status := v.before.world.store.statuses

/-- The statuses after a visit. -/
def left : List Status := v.served.state.world.store.statuses

/-- A visit asked for a statement for the user of its token, who is not nobody. -/
def Commissioned (user : Uuid) (q : Statement) : Prop :=
  v.before.Knows service v.request user ∧ user ≠ Uuid.nil ∧ v.request.Commissions user q

/-- A visit left a row that it had written for the user of its token. -/
def Wrote (i : Nat) (row : Status) : Prop :=
  v.left[i]? = some row ∧ ∃ user q, v.Commissioned service user q ∧ Authored user q v.found[i]? row

/-- The lookup of the token of a request cannot fail, if there is one. -/
def IsLookedUp : Prop :=
  (∀ raw, ¬v.request.Bears raw) ∨
    v.before.world.connection = .free ∧
      v.before.world.storeFaults.lookup "token.find_user" = none

/-- A visit was turned away: at most a token was looked up for it. -/
structure TurnedAway : Prop where
  response : v.IsLookedUp → v.served.response.status = 401
  events : ∀ ev ∈ v.served.events, ∃ digest, ev = .executed (.findTokenUser digest)
  statuses : v.left = v.found

/-- A visit wrote nothing to the table of statuses but for the user of its token. -/
structure IsAuthenticated : Prop where
  asks : ∀ q, .executed q ∈ v.served.events → q.writes = true →
    ∃ user, v.Commissioned service user q
  writes : ∀ i, v.left[i]? = v.found[i]? ∨ ∃ row, v.Wrote service i row
  reads : v.request.method = .get → v.left = v.found
  unknown : v.request.IsWrite → v.before.Admits service v.request →
    (∀ user, ¬v.before.Knows service v.request user) → v.TurnedAway

end Visit

variable {service : Service} {s : ServerState} {r : Request} {served : Served}
  {p point : Program Response} {past : List Exchange} {user : Uuid}

/-- A user that a request has been identified as is known by its token. -/
theorem Identified.knows {world : World} {events : List Event}
    (identified : Identified service.secret r user past)
    (converses : Converses s.world past world events) : s.Knows service r user := by
  obtain ⟨raw, rest, token, rfl⟩ := identified
  cases converses with
  | ask answered _ => exact ⟨raw, bearer?_eq_some_iff.mp token, World.Answers.recognizes ⟨_, answered⟩⟩

/-- A statement that was asked for a request was commissioned by it. -/
theorem commissioned_of_executed (serves : s.serve service r = some served) {q : Statement}
    (member : .executed q ∈ served.events) (writes : q.writes = true) :
    ∃ user, Visit.Commissioned ⟨s, r, served⟩ service user q := by
  obtain ⟨p, plan, -, happens, -⟩ := serve_plans serves
  rw [happens] at member
  obtain ⟨past, next, _, _, converses, leads⟩ := World.run_executed member
  obtain ⟨user, identified, named, commissions⟩ := plan.commissions leads writes
  exact ⟨user, identified.knows converses, named, commissions⟩

/-- A write for a request is the only one. Only idle calls come before it, and no statement comes
after it. -/
theorem Standing.split_of_wrote {e : Exchange} (standing : Standing service r past point)
    (member : e ∈ past) (wrote : e.Wrote) :
    ∃ front back, past = front ++ e :: back ∧ (∀ e ∈ front, isIdle e.call = true) ∧
      ∀ e ∈ back, ∀ q, e.call ≠ .query q := by
  cases standing with
  | quiet calls _ _ => exact absurd wrote (Exchange.not_wrote_of_idle (calls e member))
  | @serving front later _ _ _ _ _ _ split calls _ _ _ leads _ _ =>
    subst split
    rcases List.mem_append.mp member with before | inside
    · exact absurd wrote (Exchange.not_wrote_of_idle (calls e before))
    · obtain ⟨idle, back, rfl, unheard, silent⟩ :=
        (Registry.course leads).split_of_wrote inside wrote
      refine ⟨front ++ idle, back, (List.append_assoc ..).symm, ?_, silent⟩
      exact List.forall_mem_append.mpr ⟨calls, unheard⟩

/-- What a commissioned statement makes of the rows, it makes in the name of the user. -/
theorem Request.Commissions.authored {q : Statement} (commissions : r.Commissions user q)
    (store : Store) (i : Nat) :
    (store.rowsAfter q)[i]? = store.statuses[i]? ∨
      ∃ row, (store.rowsAfter q)[i]? = some row ∧ Authored user q store.statuses[i]? row := by
  cases commissions with
  | @create draft _ _ =>
    rcases Nat.lt_or_ge i store.statuses.length with within | beyond
    · exact .inl (List.getElem?_append_left within)
    · cases present : (store.rowsAfter (.createStatus draft user))[i]? with
      | none => exact .inl (List.getElem?_eq_none_iff.mpr beyond).symm
      | some row =>
        rw [Store.rowsAfter, List.getElem?_append_right beyond] at present
        obtain rfl := List.mem_singleton.mp (List.mem_of_getElem? present)
        rw [List.getElem?_eq_none_iff.mpr beyond]
        exact .inr ⟨_, rfl, .created rfl rfl⟩
  | @update id revision _ _ =>
    rcases rewritten_cases id (Store.revised store.now user revision) store.statuses i with
      still | ⟨row, present, target, changed⟩
    · exact .inl still
    · rw [present]
      exact .inr ⟨_, changed, .updated _ target⟩
  | @delete id _ _ =>
    rcases rewritten_cases id (Store.deleted store.now) store.statuses i with
      still | ⟨row, present, target, changed⟩
    · exact .inl still
    · rw [present]
      exact .inr ⟨_, changed, .deleted _ target⟩

/-- A place of the table is left as it was found, or the request wrote the row that it leaves
there. -/
theorem left_or_wrote (serves : s.serve service r = some served) (i : Nat) :
    (Visit.mk s r served).left[i]? = (Visit.mk s r served).found[i]? ∨
      ∃ row, (Visit.mk s r served).Wrote service i row := by
  obtain ⟨p, plan, -, -, leaves⟩ := serve_plans serves
  obtain ⟨past, point, world, _, converses, leads, ends⟩ := s.world.run_converses p
  have final : (Visit.mk s r served).left = world.store.statuses := by
    rw [Visit.left, leaves]
    rcases ends with ⟨_, -, ran⟩ | ⟨_, _, _, _, -, ran, same, -⟩
    · rw [ran]
    · rw [ran, ← same]
  -- A row can only have changed if one of the calls wrote, and then that call says for whom.
  by_cases wrote : ∃ e ∈ past, e.Wrote
  · obtain ⟨_, member, wrote⟩ := wrote
    obtain ⟨front, back, rfl, idle, silent⟩ := (plan.standing leads).split_of_wrote member wrote
    obtain ⟨q, result, rfl, writes⟩ := wrote.query
    obtain ⟨_, first, second⟩ := leads.split front
    obtain ⟨_, rfl, -⟩ := second.head
    obtain ⟨user, identified, named, commissions⟩ := plan.commissions first writes
    obtain ⟨_, _, _, -, before, -⟩ := converses.split
    obtain ⟨store, _, _, start, performed, after, -⟩ := converses.executes idle silent writes
    rw [Store.statuses_of_ok performed] at after
    rw [Visit.found, ← start, final, after]
    rcases commissions.authored store i with still | ⟨row, now, authored⟩
    · exact .inl still
    · refine .inr ⟨row, ?_, user, q, ⟨identified.knows before, named, commissions⟩, ?_⟩
      · rw [final, after, now]
      · rw [Visit.found, ← start]
        exact authored
  · rw [final, converses.statuses_eq fun e member writes => wrote ⟨e, member, writes⟩]
    exact .inl rfl

/-- A change is refused where the token of its request stands for nobody. -/
theorem run_unknown (unknown : ∀ user, ¬s.Knows service r user) (query : List UInt8)
    (operation : Operation) :
    let outcome := s.world.run (authorized service.registry service.secret r query operation)
    (∀ ev ∈ outcome.events, ∃ digest, ev = .executed (.findTokenUser digest)) ∧
      outcome.world.store.statuses = s.world.store.statuses ∧
      (((∀ raw, ¬r.Bears raw) ∨ s.world.connection = .free ∧
          s.world.storeFaults.lookup "token.find_user" = none) →
        ∃ message, outcome.value = some (Response.ofFailure (Failure.unauthorized message))) := by
  rw [authorized_eq]
  cases token : bearer? r with
  | none =>
    exact ⟨fun _ member => absurd member List.not_mem_nil, rfl, fun _ => ⟨_, rfl⟩⟩
  | some raw =>
    dsimp only
    have bears : r.Bears raw := bearer?_eq_some_iff.mp token
    have unrecognized user : ¬s.world.store.Recognizes (Token.digestOf service.secret raw) user :=
      fun recognized => unknown user ⟨raw, bears, recognized⟩
    rcases s.world.answerQuery_cases (.findTokenUser (Token.digestOf service.secret raw)) with
      ⟨e, events, given, asked⟩ | ⟨after, events, given, same, asked⟩ | given
    all_goals have answered : s.world.answer (.query (.findTokenUser _)) = _ := given
    · simp only [World.run, answered, List.append_nil, true_and]
      refine ⟨fun ev member => ⟨_, asked ev member⟩, ?_⟩
      rintro (missing | ⟨free, works⟩)
      · exact absurd bears (missing raw)
      · cases answered.symm.trans (s.world.answer_lookup free works _ _)
    · simp only [World.run, answered, same, true_and]
      refine ⟨fun ev member => ⟨_, asked ev member⟩, ?_⟩
      rintro (missing | ⟨free, works⟩)
      · exact absurd bears (missing raw)
      · cases answered.symm.trans (s.world.answer_lookup free works _ _)
    · rw [Store.execute_findTokenUser, Store.find?_of_unrecognized unrecognized] at answered
      simp only [World.run, answered]
      exact ⟨fun ev member => ⟨_, List.mem_singleton.mp member⟩, rfl, fun _ => ⟨_, rfl⟩⟩

/-- A write that the limiter admits is turned away where its token stands for nobody. -/
theorem turnedAway (serves : s.serve service r = some served) (write : r.IsWrite)
    (admits : s.Admits service r) (unknown : ∀ user, ¬s.Knows service r user) :
    (Visit.mk s r served).TurnedAway := by
  obtain ⟨p, plan, responds, happens, leaves⟩ := serve_plans serves
  cases plan with
  | refusal _ unadmitted => exact absurd admits (unadmitted write)
  | read wants reads =>
    obtain ⟨_, changing, change⟩ := write.wants
    rw [wants.isChange, ← changing.isChange, change] at reads
    cases reads
  | @change query operation _ _ =>
    obtain ⟨events, statuses, fails⟩ := run_unknown unknown query operation
    refine ⟨fun lookedUp => ?_, ?_, ?_⟩
    · obtain ⟨message, told⟩ := fails lookedUp
      show served.response.status = 401
      rw [responds, forMethod_status, told]
      rfl
    · rw [happens]
      exact events
    · rw [Visit.left, leaves]
      exact statuses

/-- Every visit is authenticated. -/
theorem isAuthenticated (serves : s.serve service r = some served) :
    (Visit.mk s r served).IsAuthenticated service where
  asks _ member writes := commissioned_of_executed serves member writes
  writes := left_or_wrote serves
  reads method := by
    apply List.ext_getElem?
    intro i
    rcases left_or_wrote serves i with same | ⟨_, -, _, _, ⟨-, -, commissions⟩, -⟩
    · exact same
    · have get : r.method = .get := method
      cases commissions with
      | create other => cases get.symm.trans other
      | update other => cases get.symm.trans other
      | delete other => cases get.symm.trans other
  unknown := turnedAway serves

/-- Nothing is written but for the users of active tokens: every visit in the life of a service is
authenticated, and every row is as it was at the start or was last written by one of them. -/
theorem writes_are_authenticated {start finish : ServerState} {visits : List Visit}
    (session : Session service start visits finish) :
    (∀ v ∈ visits, v.IsAuthenticated service) ∧
    ∀ i, finish.world.store.statuses[i]? = start.world.store.statuses[i]? ∨
      ∃ v ∈ visits, ∃ row, v.Wrote service i row ∧
        finish.world.store.statuses[i]? = some row := by
  -- A row that the last visit left alone was accounted for before it.
  induction session with
  | refl => exact ⟨fun _ member => absurd member List.not_mem_nil, fun _ => .inl rfl⟩
  | @serve visits s r served earlier serves inductionHypothesis =>
    obtain ⟨authenticated, written⟩ := inductionHypothesis
    refine ⟨List.forall_mem_append.mpr
      ⟨authenticated, List.forall_mem_singleton.mpr (isAuthenticated serves)⟩, fun i => ?_⟩
    rcases left_or_wrote serves i with same | ⟨row, wrote⟩
    · have kept : served.state.world.store.statuses[i]? = s.world.store.statuses[i]? := same
      rw [kept]
      rcases written i with start | ⟨v, member, row, wrote, present⟩
      · exact .inl start
      · exact .inr ⟨v, List.mem_append_left _ member, row, wrote, present⟩
    · exact .inr ⟨_, List.mem_append_right _ (List.mem_singleton.mpr rfl), row, wrote, wrote.1⟩
  | lapse earlier statuses inductionHypothesis =>
    rw [statuses]
    exact inductionHypothesis

open Http.Sample in
/-- The deletion of the status is authenticated, and every row it leaves is as it was or was written
for the holder of the token. -/
theorem removal_is_authenticated : ∃ served, opening.serve deployment removal = some served ∧
    served.response.status = 204 ∧
    Session deployment opening [⟨opening, removal, served⟩] served.state ∧
    (∀ v ∈ [Visit.mk opening removal served], v.IsAuthenticated deployment) ∧
    ∀ i, served.state.world.store.statuses[i]? = opening.world.store.statuses[i]? ∨
      ∃ v ∈ [Visit.mk opening removal served], ∃ row, v.Wrote deployment i row ∧
        served.state.world.store.statuses[i]? = some row := by
  obtain ⟨served, serves, told⟩ := removal_succeeds
  have session : Session deployment opening [⟨opening, removal, served⟩] served.state :=
    .serve .refl serves
  exact ⟨served, serves, congrArg Response.status told, session, writes_are_authenticated session⟩

end StatusRegistry.Http
