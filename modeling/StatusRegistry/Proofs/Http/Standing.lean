import StatusRegistry.Proofs.Http.Plans

/-!
# Where a request stands

Whatever a request has come to, its calls so far are idle, or the registry serves an operation for
it. What the registry does for it is behind the lookup of its token if the operation is a change,
and the response tells of success only if the operation succeeded.
-/

namespace StatusRegistry.Http

open Program (Leads)
open Conduct (isIdle)

variable {service : Service} {s : ServerState} {r : Request} {past : List Exchange}
  {p point : Program Response}

/-- A failure is never told as a success. -/
theorem ofFailure_fails (failure : Failure) : ¬(Response.ofFailure failure).Succeeds := by
  obtain ⟨kind, _, _⟩ := failure
  cases kind <;> simp [Response.Succeeds, Response.ofFailure, FailureKind.httpStatus]

/-- The token of a request has been found to stand for a user. -/
def Identified (secret : String) (r : Request) (user : Uuid) (past : List Exchange) : Prop :=
  ∃ raw rest, bearer? r = some raw ∧
    past = ⟨.query (.findTokenUser (Token.digestOf secret raw)), .ok (some user)⟩ :: rest

/-- What a request, by its method and path, lets a user write to the table of statuses. -/
inductive Request.Commissions (r : Request) (user : Uuid) : Statement → Prop where
  | create {draft : Draft} (method : r.method = .post) (path : r.path? = some (statusPath [])) :
      Commissions r user (.createStatus draft user)
  | update {id : Uuid} {revision : Revision} (method : r.method = .put) (names : r.Names id) :
      Commissions r user (.updateStatus id user revision)
  | delete {id : Uuid} (method : r.method = .delete) (names : r.Names id) :
      Commissions r user (.deleteStatus id)

/-- What a request has come to. -/
inductive Standing (service : Service) (r : Request) (past : List Exchange)
    (point : Program Response) : Prop where
  /-- Nothing could have been noticed so far, and if it ends so, a change has failed. -/
  | quiet (calls : ∀ e ∈ past, isIdle e.call = true)
      (asks : ∀ q next, point = .call (.query q) next → q.writes = false)
      (fails : r.method.isChange = true → ∀ response, point = .done response →
        ¬response.Succeeds)
  /-- The registry serves an operation for it, a change for the user of its token. -/
  | serving {front later : List Exchange} {caller : Option Caller} {operation : Operation}
      {served : StatusRegistry.Operation} {status : Nat}
      {inner : Registry.Service served.Result} {tell : served.Result → Response}
      (split : past = front ++ later) (calls : ∀ e ∈ front, isIdle e.call = true)
      (wants : r.Wants operation)
      (identity : operation.isChange = true → ∃ user, caller = some ⟨user⟩ ∧
        Identified service.secret r user past)
      (performs : Performs caller operation served status)
      (leads : Leads (service.registry.serve served) later inner)
      (tells : ∀ a, (tell a).status = status)
      (stands : point = inner.bind fun outcome => .done (Response.ofExcept tell outcome))

/-- A request that has failed without a call that could be noticed. -/
theorem Standing.of_failure {failure : Failure} (calls : ∀ e ∈ past, isIdle e.call = true) :
    Standing service r past (.done (Response.ofFailure failure)) := by
  refine .quiet calls nofun ?_
  rintro - _ ⟨⟩
  exact ofFailure_fails failure

/-- Asking for the health makes idle calls only. -/
theorem leads_health (here : Leads health past point) :
    (∀ e ∈ past, isIdle e.call = true) ∧
      ∀ q next, point = .call (.query q) next → q.writes = false := by
  cases here with
  | here => exact ⟨fun _ member => absurd member List.not_mem_nil, nofun⟩
  | ask onward =>
    cases onward with
    | here =>
      refine ⟨List.forall_mem_singleton.mpr rfl, ?_⟩
      rintro _ _ ⟨⟩
      rfl
    | ask onward =>
      obtain ⟨rfl, rfl⟩ := Leads.of_done onward
      exact ⟨List.forall_mem_cons.mpr ⟨rfl, List.forall_mem_singleton.mpr rfl⟩, nofun⟩

/-- Where a request stands whose operation is performed. -/
theorem standing_of_perform (front : List Exchange) {later : List Exchange} {query : List UInt8}
    {caller : Option Caller} {operation : Operation} (wants : r.Wants operation)
    (calls : ∀ e ∈ front, isIdle e.call = true)
    (identity : operation.isChange = true → ∃ user, caller = some ⟨user⟩ ∧
      Identified service.secret r user (front ++ later))
    (here : Leads (perform service.registry r query caller operation) later point) :
    Standing service r (front ++ later) point := by
  by_cases health : operation = .health
  · subst health
    obtain ⟨idle, asks⟩ := leads_health here
    refine .quiet (List.forall_mem_append.mpr ⟨calls, idle⟩) asks fun change => ?_
    rw [← wants.isChange] at change
    cases change
  · obtain ⟨failure, fails⟩ | ⟨served, status, performs, tell, tells, same⟩ :=
      performed service.registry r query caller health
    · rw [fails] at here
      obtain ⟨rfl, rfl⟩ := here.of_done
      rw [List.append_nil]
      exact .of_failure calls
    · rw [same] at here
      obtain ⟨inner, leads, stands⟩ := here.of_told
      exact .serving rfl calls wants identity performs leads tells stands

/-- Where a request stands whose change is performed for the user of its token. -/
theorem standing_of_authorized {query : List UInt8} {operation : Operation}
    (wants : r.Wants operation)
    (here : Leads (authorized service.registry service.secret r query operation) past point) :
    Standing service r past point := by
  rw [authorized_eq] at here
  cases token : bearer? r with
  | none =>
    simp only [token] at here
    obtain ⟨rfl, rfl⟩ := here.of_done
    exact .of_failure fun _ member => absurd member List.not_mem_nil
  | some raw =>
    simp only [token] at here
    cases here with
    | here =>
      refine .quiet (fun _ member => absurd member List.not_mem_nil) ?_ nofun
      rintro _ _ ⟨⟩
      rfl
    | @ask _ _ answer later _ onward =>
      rcases answer with e | (_ | user)
      · obtain ⟨rfl, rfl⟩ := Leads.of_done onward
        exact .of_failure (List.forall_mem_singleton.mpr rfl)
      · obtain ⟨rfl, rfl⟩ := Leads.of_done onward
        exact .of_failure (List.forall_mem_singleton.mpr rfl)
      · cases onward with
        | here =>
          refine .quiet (List.forall_mem_singleton.mpr rfl) ?_ nofun
          rintro _ _ ⟨⟩
          rfl
        | @ask _ _ answer later _ onward =>
          exact standing_of_perform [_, _] wants
            (List.forall_mem_cons.mpr ⟨rfl, List.forall_mem_singleton.mpr rfl⟩)
            (fun _ => ⟨user, rfl, raw, _, token, rfl⟩) onward

/-- Where a request stands whose plan has been followed so far. -/
theorem Plans.standing (plan : Plans service s r p) (here : Leads p past point) :
    Standing service r past point := by
  cases plan with
  | refusal fails unadmitted =>
    obtain ⟨rfl, rfl⟩ := here.of_done
    refine .quiet (fun _ member => absurd member List.not_mem_nil) nofun ?_
    rintro - _ ⟨⟩
    exact fails
  | read wants reads =>
    refine standing_of_perform [] wants
      (fun _ member => absurd member List.not_mem_nil) (fun change => ?_) here
    rw [reads] at change
    cases change
  | change wants changes => exact standing_of_authorized wants here

/-- What is asked of the registry for a caller is what its request commissions. -/
theorem Performs.commissions {user : Uuid} {caller : Caller} {operation : Operation}
    {served : StatusRegistry.Operation} {status : Nat} {q : Statement}
    (performs : Performs (some ⟨user⟩) operation served status) (wants : r.Wants operation)
    (asks : served.Asks caller q) : caller.user = user ∧ r.Commissions user q := by
  cases asks with
  | create =>
    cases performs with
    | create known =>
      cases known
      cases wants.change rfl with
      | create method path => exact ⟨rfl, .create method path⟩
  | update =>
    cases performs with
    | update known named =>
      cases known
      cases wants.change rfl with
      | update method path => exact ⟨rfl, .update method ⟨_, path, named⟩⟩
  | delete =>
    cases performs with
    | delete known named =>
      cases known
      cases wants.change rfl with
      | delete method path => exact ⟨rfl, .delete method ⟨_, path, named⟩⟩

/-- A request that is about to write to the table of statuses has been found to come from a user,
and commissions what it is about to write. -/
theorem Plans.commissions {q : Statement} {next : Call.Answer (.query q) → Program Response}
    (plan : Plans service s r p) (here : Leads p past (.call (.query q) next))
    (writes : q.writes = true) :
    ∃ user, Identified service.secret r user past ∧ user ≠ Uuid.nil ∧ r.Commissions user q := by
  cases plan.standing here with
  | quiet _ asks _ =>
    rw [asks q next rfl] at writes
    cases writes
  | @serving _ _ caller operation served _ _ _ _ _ wants identity performs leads _ stands =>
    obtain ⟨inside, rfl⟩ := Program.call_of_told stands.symm
    obtain ⟨asking, identified, asks⟩ := Registry.asks_of_writes writes leads
    have change : operation.isChange = true := by
      cases asks <;> cases performs <;> rfl
    obtain ⟨user, rfl, known⟩ := identity change
    obtain ⟨rfl, commissions⟩ := performs.commissions wants asks
    exact ⟨_, known, identified_ne identified, commissions⟩

end StatusRegistry.Http
