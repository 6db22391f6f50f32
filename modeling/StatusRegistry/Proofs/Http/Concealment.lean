import StatusRegistry.Proofs.Cache.Influence
import StatusRegistry.Proofs.Http.Spelling

/-!
# Errors of the store stay inside

A statement that fails ends its request in the words of the service, with the name of the statement and
nothing of the error, unless a client is told nothing at all: the health is only not well, and that the
use of a token could not be recorded is passed over. So two runs of a request that differ in the error
of a statement alone end in the same response.
-/

namespace StatusRegistry

open Program (Leads)

/-- An error of whose kind no client learns: it is neither a row that was not found nor a second row
with a unique value. -/
def StoreError.IsInternal : StoreError → Prop
  | .rejected state _ _ => state ≠ uniqueViolation
  | .noRow => False
  | _ => True

/-- Clients are told of all internal errors in the same words. -/
theorem StoreError.IsInternal.toFailure_eq {e : StoreError} (internal : e.IsInternal) :
    e.toFailure = ⟨.internal, "Database error", .obj []⟩ := by
  cases e with
  | rejected state message violated => exact if_neg internal
  | noRow => exact internal.elim
  | _ => rfl

/-- Whether clients are told that a statement has failed: the statements about statuses, and the lookup
of a token. -/
def Statement.isReported : Statement → Bool
  | .createStatus .. => true
  | .updateStatus .. => true
  | .findStatus _ => true
  | .deleteStatus _ => true
  | .countFiltered _ => true
  | .pageFiltered .. => true
  | .countMatching _ => true
  | .pageMatching .. => true
  | .findTokenUser _ => true
  | _ => false

/-- The use of a token is recorded by the statement of that name. -/
theorem Statement.eq_touchToken {q : Statement} (named : q.name = "token.update_last_used") :
    ∃ digest, q = .touchToken digest := by
  cases q with
  | touchToken digest => exact ⟨digest, rfl⟩
  | _ => simp [name] at named

/-- A program makes no statements. -/
def Program.IsSilent {α : Type} (p : Program α) : Prop :=
  p.MakesOnly fun c => !World.isStatement c

/-- Every statement of an action is reported, and its error ends the action. -/
inductive PassesErrors {α : Type} : Registry.Service α → Prop where
  | done (result : Except Failure α) : PassesErrors (.done result)
  | ask {q : Statement} {next : Except StoreError q.Result → Registry.Service α}
      (reported : q.isReported = true) (refuses : ∀ e, next (.error e) = Registry.refused q e)
      (onward : ∀ result, PassesErrors (next (.ok result))) :
      PassesErrors (.call (.query q) next)
  | other {c : Call} {next : c.Answer → Registry.Service α} (silent : World.isStatement c = false)
      (onward : ∀ answer, PassesErrors (next answer)) : PassesErrors (.call c next)

namespace PassesErrors

variable {α β : Type} {p : Registry.Service α} {past : List Exchange} {q : Statement}

/-- Wherever an action that passes errors on has come, it passes the next one on. -/
theorem leads (passes : PassesErrors p) {next : Except StoreError q.Result → Registry.Service α}
    (here : Leads p past (.call (.query q) next)) :
    q.isReported = true ∧ ∀ e, next (.error e) = Registry.refused q e := by
  induction passes generalizing past with
  | done => cases here
  | ask reported refuses _ inductionHypothesis =>
    cases here with
    | here => exact ⟨reported, refuses⟩
    | @ask _ _ answer _ _ onward =>
      rcases answer with e | result
      · rw [refuses e] at onward
        cases onward
      · exact inductionHypothesis result onward
  | other silent _ inductionHypothesis =>
    cases here with
    | here => cases silent
    | ask onward => exact inductionHypothesis _ onward

/-- A reported statement passes its error on. -/
theorem query (reported : q.isReported = true) : PassesErrors (Action.query q).run :=
  .ask reported (fun _ => rfl) fun _ => .done _

/-- An action followed by another passes errors on if both do. -/
theorem bind {a : Action α} {f : α → Action β} (first : PassesErrors a.run)
    (onward : ∀ x, PassesErrors (f x).run) : PassesErrors (a >>= f).run := by
  suffices whole : ∀ {p : Registry.Service α}, PassesErrors p →
      PassesErrors (p.bind (ExceptT.bindCont f)) from whole first
  intro p passes
  induction passes with
  | done result =>
    cases result with
    | ok x => exact onward x
    | error failure => exact .done _
  | ask reported refuses _ inductionHypothesis =>
    refine .ask reported (fun e => ?_) inductionHypothesis
    rw [refuses e]
    rfl
  | other silent _ inductionHypothesis => exact .other silent inductionHypothesis

/-- An action that starts with a value at hand goes on with it, or fails. -/
theorem reading {reading : Except Failure α} {f : α → Action β}
    (onward : ∀ x, PassesErrors (f x).run) :
    PassesErrors (Action.ofExcept reading >>= f).run :=
  .bind (.done reading) onward

/-- A program without statements passes errors on. -/
theorem lift {p : Program α} (quiet : p.IsSilent) :
    PassesErrors (ExceptT.lift p : Action α).run := by
  induction p with
  | done a => exact .done (.ok a)
  | call c next inductionHypothesis =>
    have silent : World.isStatement c = false := by simpa using quiet.1
    exact .other silent fun answer => inductionHypothesis answer (quiet.2 answer)

end PassesErrors

namespace Registry

variable (r : Registry)

/-- The removal of a cached copy makes no statements. -/
theorem isSilent_invalidate (id : Uuid) : (invalidate id).IsSilent := by
  refine ⟨rfl, ?_⟩
  rintro (e | ⟨⟩)
  · exact ⟨rfl, fun _ => trivial⟩
  · trivial

/-- Keeping a copy in the cache makes no statements. -/
theorem isSilent_writeCached (id : Uuid) (s : Status) : (r.writeCached id s).IsSilent := by
  refine ⟨rfl, ?_⟩
  rintro (e | ⟨⟩)
  · exact ⟨rfl, fun _ => trivial⟩
  · trivial

/-- Reading a copy makes no statements. -/
theorem isSilent_readCached (id : Uuid) : (readCached id).IsSilent := by
  refine ⟨rfl, ?_⟩
  rintro (e | text)
  · exact ⟨rfl, fun _ => trivial⟩
  · dsimp only
    cases Status.decode (Utf8.octets text) with
    | ok s => exact ⟨rfl, fun _ => trivial⟩
    | error problem => exact ⟨rfl, fun _ => trivial⟩

/-- A lookup passes errors on. -/
theorem passes_find (id : Uuid) : PassesErrors (StatusRows.find id).run :=
  .bind (.query rfl) fun _ => .done _

/-- A creation passes errors on. -/
theorem passes_create (caller : Caller) (draft : Draft) :
    PassesErrors (create caller draft).run :=
  .reading fun _ => .reading fun _ => .query rfl

/-- An update passes errors on. -/
theorem passes_update (caller : Caller) (id : Uuid) (revision : Revision) :
    PassesErrors (r.update caller id revision).run :=
  .reading fun _ => .reading fun _ => .bind (passes_find id) fun _ => .reading fun _ =>
    .bind (.bind (.query rfl) fun _ => .done _) fun _ =>
      .bind (.lift (isSilent_invalidate id)) fun _ => .done _

/-- A read passes errors on. -/
theorem passes_get (id : Uuid) : PassesErrors (r.get id).run := by
  refine .bind (.lift (isSilent_readCached id)) ?_
  rintro (_ | s)
  · exact .bind (passes_find id) fun s =>
      .bind (.lift (r.isSilent_writeCached id s)) fun _ => .done _
  · exact .done _

/-- A deletion passes errors on. -/
theorem passes_delete (caller : Caller) (id : Uuid) :
    PassesErrors (r.delete caller id).run :=
  .reading fun _ => .bind (passes_find id) fun _ => .reading fun _ =>
    .bind (.bind (.query rfl) fun _ => .done _) fun _ => .lift (isSilent_invalidate id)

/-- Where something is found, its page passes errors on. -/
theorem passes_page {α : Type} {total : Int64} {empty : α} {q : Statement} {f : q.Result → α}
    (reported : q.isReported = true) :
    PassesErrors (if total = 0 then pure empty else
      Action.query q >>= fun rows => pure (f rows) : Action α).run := by
  split
  · exact .done _
  · exact .bind (.query reported) fun _ => .done _

/-- A listing passes errors on. -/
theorem passes_list (request : PageRequest) (filter : Filter) :
    PassesErrors (list request filter).run :=
  .bind (.query rfl) fun _ => passes_page rfl

/-- A search passes errors on. -/
theorem passes_search (text : String) (request : PageRequest) :
    PassesErrors (search text request).run :=
  .bind (.query rfl) fun _ => passes_page rfl

end Registry

namespace Http

/-- The response to a request that the store has failed, whatever its error. -/
def storeFailed (operation : String) : Response :=
  ⟨500, [("content-type", "application/json")], .json (.obj [("error", .obj [
    ("code", .str "internal_error"), ("message", .str "Database error"),
    ("details", .obj [("op", .str operation)])])])⟩

/-- An internal error is told by the name of the statement alone. -/
theorem ofFailure_eq {e : StoreError} (internal : e.IsInternal) (operation : String) :
    Response.ofFailure (e.toFailure.withOperation operation) = storeFailed operation := by
  rw [internal.toFailure_eq]
  rfl

/-- How a request goes on after a statement conceals the error of the statement. -/
structure Conceals (q : Statement) (next : Except StoreError q.Result → Program Response) : Prop where
  /-- All internal errors are alike. -/
  alike : ∀ e e', e.IsInternal → e'.IsInternal → next (.error e) = next (.error e')
  /-- An internal error that is reported ends the request. -/
  reported : q.isReported = true → ∀ e, e.IsInternal → next (.error e) = .done (storeFailed q.name)
  /-- Whether the use of a token could be recorded does not matter. -/
  unreported : ∀ digest, q = .touchToken digest → ∀ answer answer', next answer = next answer'
  /-- No other statement is made for a request. -/
  kinds : q.isReported = true ∨ q = .health ∨ ∃ digest, q = .touchToken digest

/-- Wherever a program comes, it conceals the error of its next statement. -/
def IsConcealing (p : Program Response) : Prop :=
  ∀ past q next, Leads p past (.call (.query q) next) → Conceals q next

section

variable {p : Program Response} {q : Statement}
  {next : Except StoreError q.Result → Program Response}

/-- A statement whose error is told in its name is concealed. -/
theorem Conceals.of_told (reported : q.isReported = true)
    (told : ∀ e, next (.error e) = .done (Response.ofFailure (e.toFailure.withOperation q.name))) :
    Conceals q next where
  alike e e' internal internal' := by
    rw [told, told, ofFailure_eq internal, ofFailure_eq internal']
  reported _ e internal := by rw [told, ofFailure_eq internal]
  unreported := by
    rintro _ rfl
    cases reported
  kinds := .inl reported

/-- A program that makes no call conceals what there is. -/
theorem isConcealing_done (response : Response) : IsConcealing (.done response) :=
  fun _ _ _ here => nomatch here

/-- A program conceals errors if it conceals that of its first statement and goes on so. -/
theorem isConcealing_query (first : Conceals q next) (onward : ∀ answer, IsConcealing (next answer)) :
    IsConcealing (.call (.query q) next) := by
  intro past q' next' here
  cases here with
  | here => exact first
  | ask rest => exact onward _ _ _ _ rest

/-- A program goes on concealing errors. -/
theorem IsConcealing.onward {c : Call} {next : c.Answer → Program Response}
    (conceals : IsConcealing (.call c next)) (answer : c.Answer) : IsConcealing (next answer) :=
  fun _ _ _ here => conceals _ _ _ (.ask here)

/-- The response to an action that passes errors on conceals them. -/
theorem isConcealing_respond {α : Type} {action : Action α} (passes : PassesErrors action.run)
    (success : α → Response) : IsConcealing (respond action success) := by
  intro past q next here
  obtain ⟨point, leads, stands⟩ := Leads.of_told (f := Response.ofExcept success) here
  obtain ⟨inside, rfl⟩ := Program.call_of_told stands.symm
  cases stands
  obtain ⟨reported, refuses⟩ := passes.leads leads
  refine .of_told reported fun e => ?_
  rw [refuses e]
  rfl

/-- The question for the health is answered alike whatever the error. -/
theorem isConcealing_health : IsConcealing health := by
  intro past q next here
  cases here with
  | ask onward =>
    cases onward with
    | here => exact ⟨fun _ _ _ _ => rfl, nofun, nofun, .inr (.inl rfl)⟩
    | ask ended => cases (Leads.of_done ended).2

/-- Performing an operation conceals errors. -/
theorem isConcealing_perform (registry : Registry) (r : Request) (query : List UInt8)
    (caller : Option Caller) (operation : Operation) :
    IsConcealing (perform registry r query caller operation) := by
  cases operation with
  | health => exact isConcealing_health
  | list => exact isConcealing_respond (.reading fun _ => Registry.passes_list _ _) _
  | search => exact isConcealing_respond (.reading fun _ => Registry.passes_search _ _) _
  | create =>
    exact isConcealing_respond
      (.reading fun _ => .reading fun _ => Registry.passes_create _ _) _
  | get name => exact isConcealing_respond (.reading fun _ => registry.passes_get _) _
  | update name =>
    exact isConcealing_respond
      (.reading fun _ => .reading fun _ => .reading fun _ => registry.passes_update _ _ _) _
  | delete name =>
    exact isConcealing_respond
      (.reading fun _ => .reading fun _ => registry.passes_delete _ _) _

/-- Performing an operation behind the lookup of a token conceals errors. -/
theorem isConcealing_authorized (registry : Registry) (secret : String) (r : Request)
    (query : List UInt8) (operation : Operation) :
    IsConcealing (authorized registry secret r query operation) := by
  rw [authorized_eq]
  cases bearer? r with
  | none => exact isConcealing_done _
  | some raw =>
    refine isConcealing_query (.of_told rfl fun e => rfl) ?_
    rintro (e | (_ | user))
    · exact isConcealing_done _
    · exact isConcealing_done _
    · refine isConcealing_query ?_ fun _ => isConcealing_perform _ _ _ _ _
      exact ⟨fun _ _ _ _ => rfl, nofun, fun _ _ _ _ => rfl, .inr (.inr ⟨_, rfl⟩)⟩

end

namespace ServerState

variable {s entered : ServerState} {service : Service} {r : Request} {w : World}
  {p : Program Response}

/-- The service in another world. -/
def withWorld (s : ServerState) (w : World) : ServerState := { s with world := w }

/-- The limiters ask a world for nothing but the time. -/
theorem accept_withWorld (same : w.now = s.world.now) (isChange : Bool) (client : Ip) :
    (s.withWorld w).accept isChange client = (s.accept isChange client).map (·.withWorld w) := by
  unfold accept withWorld
  simp only [same]
  cases isChange with
  | true => cases s.changes.accept Quota.changes s.world.now client <;> rfl
  | false => cases s.reads.accept Quota.reads s.world.now client <;> rfl

/-- What a request for a resource under limits comes to, it comes to in any world of that time. -/
theorem enterLimited_withWorld (same : w.now = s.world.now) (query : List UInt8)
    (resource : Resource) :
    (s.withWorld w).enterLimited service r query resource =
      (s.enterLimited service r query resource).map (·.withWorld w) id := by
  unfold enterLimited
  dsimp only
  cases r.client? service.behindProxy with
  | none => rfl
  | some client =>
    dsimp only
    rw [accept_withWorld same]
    cases s.accept _ client with
    | error wait => rfl
    | ok after => cases resource.operation? r.method <;> rfl

/-- What a request comes to, it comes to in any world of that time. -/
theorem enter?_withWorld (same : w.now = s.world.now) :
    (s.withWorld w).enter? service r =
      (s.enter? service r).map (Prod.map (·.withWorld w) id) := by
  unfold enter?
  rcases (Target.parse? r.target).map Target.parts with _ | ⟨query, path?⟩
  · rfl
  refine congrArg some ?_
  unfold enterPath
  dsimp only
  cases path?.bind Resource.ofPath with
  | none => rfl
  | some resource =>
    cases resource with
    | health =>
      unfold enterResource
      dsimp only
      cases Resource.health.operation? r.method <;> rfl
    | _ => exact enterLimited_withWorld same query _

/-- A request for a resource under limits comes to a program that conceals errors. -/
theorem isConcealing_limited (s : ServerState) (service : Service) (r : Request)
    (query : List UInt8) (resource : Resource) :
    IsConcealing (s.enterLimited service r query resource).2 := by
  unfold enterLimited
  dsimp only
  cases r.client? service.behindProxy with
  | none => exact isConcealing_done _
  | some client =>
    dsimp only
    cases s.accept _ client with
    | error wait => exact isConcealing_done _
    | ok after =>
      cases resource.operation? r.method with
      | none => exact isConcealing_done _
      | some operation =>
        dsimp only
        split
        · exact isConcealing_authorized _ _ _ _ _
        · exact isConcealing_perform _ _ _ _ _

/-- A request comes to a program that conceals errors. -/
theorem isConcealing_enter (enters : s.enter? service r = some (entered, p)) : IsConcealing p := by
  obtain ⟨⟨query, path?⟩, -, arrives⟩ := Option.map_eq_some_iff.mp enters
  obtain rfl : _ = p := congrArg Prod.snd arrives
  unfold enterPath
  dsimp only
  cases path?.bind Resource.ofPath with
  | none => exact isConcealing_done _
  | some resource =>
    cases resource with
    | health =>
      unfold enterResource
      dsimp only
      cases Resource.health.operation? r.method with
      | none => exact isConcealing_done _
      | some operation => exact isConcealing_perform _ _ _ _ _
    | _ => exact isConcealing_limited s service r query _

/-- The response to a request in a world is what its program ends in there. -/
theorem response_withWorld (s : ServerState) (service : Service) (r : Request)
    (same : w.now = s.world.now) :
    ((s.withWorld w).serve service r).map Served.response =
      (s.enter? service r).map fun came =>
        ((w.run came.2).value.getD timedOut).forMethod r.method := by
  rw [serve_eq, enter?_withWorld same, Option.map_map, Option.map_map]
  rfl

end ServerState

end Http

namespace World

variable {α : Type} {w after : World}

/-- The value of a program is that of what follows the answer to its first call. -/
theorem value_call (w : World) (c : Call) (next : c.Answer → Program α) :
    (w.run (.call c next)).value =
      (w.answer c).value.bind fun answer => ((w.answer c).world.run (next answer)).value := by
  rw [run]
  rcases w.answer c with ⟨_ | answer, after, events⟩ <;> rfl

/-- The world in which the statements with a name fail. -/
def failing (w : World) (name : String) (e : StoreError) : World :=
  { w with storeFaults := (name, .error e) :: w.storeFaults }

/-- A call that is no statement does not fail with the statements. -/
theorem answer_failing_other (w : World) (name : String) (e : StoreError) {c : Call}
    (other : isStatement c = false) :
    (w.failing name e).answer c =
      ⟨(w.answer c).value, (w.answer c).world.failing name e, (w.answer c).events⟩ := by
  cases c with
  | query q => cases other
  | cacheGet key =>
    simp only [answer, answerGet, failing]
    cases w.cacheFaults.lookup .get <;> rfl
  | cacheSet key value lifetime =>
    simp only [answer, answerSet, failing]
    cases w.cacheFaults.lookup .set <;> rfl
  | cacheDelete key =>
    simp only [answer, answerDelete, failing]
    cases w.cacheFaults.lookup .delete <;> rfl
  | cacheHealth => rfl
  | count m => rfl

/-- A call is a statement that fails so, or it is answered as if nothing had been set to fail in
addition. -/
theorem answer_failing (w : World) (name : String) (c : Call) :
    (∃ q, c = .query q ∧ w.connection = .free ∧ q.name = name ∧
      ∀ e, (w.failing name e).answer (.query q) =
        ⟨some (.error e), w.failing name e, [.executed q]⟩) ∨
    (∀ q, c = .query q → w.connection = .free → q.name ≠ name) ∧
      ∀ e, (w.failing name e).answer c =
        ⟨(w.answer c).value, (w.answer c).world.failing name e, (w.answer c).events⟩ := by
  cases other : isStatement c with
  | false =>
    refine .inr ⟨?_, fun e => w.answer_failing_other name e other⟩
    rintro q rfl
    cases other
  | true =>
    obtain ⟨store, faults, connection, cache, cacheFaults, now⟩ := w
    cases c with
    | query q =>
      by_cases hit : connection = .free ∧ q.name = name
      · obtain ⟨rfl, named⟩ := hit
        refine .inl ⟨q, rfl, rfl, named, fun e => ?_⟩
        simp only [answer, answerQuery, failing, named, List.lookup_cons_self]
        rfl
      · refine .inr ⟨?_, fun e => ?_⟩
        · rintro _ ⟨⟩ free named
          exact hit ⟨free, named⟩
        · cases connection with
          | closed => rfl
          | occupied => rfl
          | free =>
            have unnamed : q.name ≠ name := fun named => hit ⟨rfl, named⟩
            simp only [answer, answerQuery, failing, List.lookup_cons, beq_false_of_ne unnamed]
            rcases faults.lookup q.name with _ | (e' | _) <;> rfl
    | _ => cases other

open Http in
/-- A program that conceals errors ends alike under any two internal errors of a statement. -/
theorem run_failing {p : Program Response} (conceals : IsConcealing p) {e e' : StoreError}
    (internal : e.IsInternal) (internal' : e'.IsInternal) (w : World) (name : String) :
    ((w.failing name e).run p).value = ((w.failing name e').run p).value := by
  induction p generalizing w with
  | done response => rfl
  | call c next inductionHypothesis =>
    rw [value_call, value_call]
    obtain ⟨q, rfl, -, -, fails⟩ | ⟨-, same⟩ := w.answer_failing name c
    · -- Here the errors come in, and from here on the two runs are of one program.
      rw [fails, fails]
      have alike := (conceals _ _ _ .here).alike e e' internal internal'
      show ((w.failing name e).run (next (.error e))).value = _
      rw [alike]
      exact inductionHypothesis _ (conceals.onward _) w
    · rw [same, same]
      cases (w.answer c).value with
      | none => rfl
      | some answer => exact inductionHypothesis answer (conceals.onward answer) _

/-- The calls of a program that are answered in a world, with their answers. -/
def exchanges (w : World) : Program α → List Exchange
  | .done _ => []
  | .call c next =>
    match w.answer c with
    | ⟨none, _, _⟩ => []
    | ⟨some answer, after, _⟩ => ⟨c, answer⟩ :: after.exchanges (next answer)

/-- The answers of a world lead a program to its end, or to a call that is not answered. -/
theorem exchanges_lead (w : World) (p : Program α) :
    ∃ point, Leads p (w.exchanges p) point ∧ ∀ a, point = .done a → (w.run p).value = some a := by
  induction p generalizing w with
  | done a =>
    refine ⟨_, .here, ?_⟩
    rintro _ ⟨⟩
    rfl
  | call c next inductionHypothesis =>
    rw [exchanges, value_call]
    rcases w.answer c with ⟨_ | answer, after, events⟩
    · exact ⟨_, .here, nofun⟩
    · obtain ⟨point, leads, ends⟩ := inductionHypothesis answer after
      exact ⟨point, .ask leads, ends⟩

end World

/-- A token as if it had never been used. -/
def Token.unused (t : Token) : Token := { t with lastUsedAt := none }

namespace Store

variable {s : Store} {tokens : List Token}

/-- The store with other tokens. -/
def withTokens (s : Store) (tokens : List Token) : Store := { s with tokens := tokens }

/-- Other tokens of a store differ in their last use alone, and its clock stands still. -/
structure DiffersInUse (s : Store) (tokens : List Token) : Prop where
  still : s.clockStep = 0
  unused : tokens.map Token.unused = s.tokens.map Token.unused

/-- The lookup of a token does not ask for its last use. -/
theorem findUser_eq (differs : s.DiffersInUse tokens) (digest : String) :
    (tokens.find? (isActiveDigest digest)).map Token.user =
      (s.tokens.find? (isActiveDigest digest)).map Token.user := by
  have seen : ∀ ts : List Token, (ts.find? (isActiveDigest digest)).map Token.user =
      ((ts.map Token.unused).find? (isActiveDigest digest)).map Token.user := by
    intro ts
    rw [List.find?_map, Option.map_map]
    rfl
  rw [seen tokens, differs.unused, ← seen]

/-- No statement that is made for a request asks for the last use of a token. -/
theorem execute_withTokens (differs : s.DiffersInUse tokens) {q : Statement}
    (kind : q.isReported = true ∨ q = .health) :
    (s.withTokens tokens).execute q = ((s.execute q).1, (s.execute q).2.withTokens tokens) ∧
      (s.execute q).2.DiffersInUse tokens := by
  unfold execute
  cases valueProblem q with
  | some problem => exact ⟨rfl, differs⟩
  | none =>
    cases q with
    | findTokenUser digest =>
      refine ⟨?_, differs⟩
      exact congrArg (fun user => (Except.ok user, s.withTokens tokens))
        (findUser_eq differs digest)
    | createStatus | updateStatus | findStatus | deleteStatus | countFiltered | pageFiltered
    | countMatching | pageMatching | health => exact ⟨rfl, ⟨differs.still, differs.unused⟩⟩
    | _ => rcases kind with ⟨⟨⟩⟩ | ⟨⟨⟩⟩

/-- Recording the use of a token changes nothing but its last use. -/
theorem execute_touch (differs : s.DiffersInUse tokens) (digest : String) :
    ∃ touched, (s.execute (.touchToken digest)).2 = s.withTokens touched ∧
      (s.withTokens touched).DiffersInUse tokens := by
  unfold execute
  cases valueProblem (.touchToken digest) with
  | some problem => exact ⟨s.tokens, rfl, differs⟩
  | none =>
    have same : ∀ after, ({ s with tokens := after } : Store).tick = s.withTokens after := by
      intro after
      simp only [tick, withTokens, differs.still, Int.add_zero]
    refine ⟨_, same _, differs.still, ?_⟩
    rw [differs.unused, withTokens, List.map_map]
    refine List.map_congr_left fun t _ => ?_
    simp only [Function.comp_apply]
    split <;> rfl

end Store

namespace World

variable {w : World} {tokens : List Token}

/-- The world with other tokens. -/
def withTokens (w : World) (tokens : List Token) : World :=
  { w with store := w.store.withTokens tokens }

/-- A call that does not record the use of a token is answered alike whatever the last uses are. -/
theorem answer_withTokens (differs : w.store.DiffersInUse tokens) {c : Call}
    (kind : ∀ q, c = .query q → w.connection = .free → q.isReported = true ∨ q = .health) :
    (w.withTokens tokens).answer c =
        ⟨(w.answer c).value, (w.answer c).world.withTokens tokens, (w.answer c).events⟩ ∧
      (w.answer c).world.store.DiffersInUse tokens ∧
      (w.answer c).world.storeFaults = w.storeFaults := by
  obtain ⟨store, faults, connection, cache, cacheFaults, now⟩ := w
  cases c with
  | query q =>
    cases connection with
    | closed => exact ⟨rfl, differs, rfl⟩
    | occupied => exact ⟨rfl, differs, rfl⟩
    | free =>
      obtain ⟨same, after⟩ := Store.execute_withTokens differs (kind q rfl rfl)
      simp only [answer, answerQuery, withTokens]
      rcases faults.lookup q.name with _ | (e | _)
      · exact ⟨by rw [same]; rfl, after, rfl⟩
      · exact ⟨rfl, differs, rfl⟩
      · exact ⟨rfl, differs, rfl⟩
  | cacheGet key =>
    simp only [answer, answerGet, withTokens]
    cases cacheFaults.lookup .get <;> exact ⟨rfl, differs, rfl⟩
  | cacheSet key value lifetime =>
    simp only [answer, answerSet, withTokens]
    cases cacheFaults.lookup .set <;> exact ⟨rfl, differs, rfl⟩
  | cacheDelete key =>
    simp only [answer, answerDelete, withTokens]
    cases cacheFaults.lookup .delete <;> exact ⟨rfl, differs, rfl⟩
  | cacheHealth => exact ⟨rfl, differs, rfl⟩
  | count m => exact ⟨rfl, differs, rfl⟩

/-- Recording the use of a token is answered, and changes nothing but its last use. -/
theorem answer_touch (differs : w.store.DiffersInUse tokens) (free : w.connection = .free)
    (answered : w.storeFaults.lookup "token.update_last_used" ≠ some .hang) (digest : String) :
    ∃ answer touched events,
      w.answer (.query (.touchToken digest)) = ⟨some answer, w.withTokens touched, events⟩ ∧
      (w.store.withTokens touched).DiffersInUse tokens := by
  obtain ⟨store, faults, connection, cache, cacheFaults, now⟩ := w
  obtain rfl : connection = .free := free
  obtain ⟨touched, same, after⟩ := Store.execute_touch differs digest
  simp only [answer, answerQuery, Statement.name, withTokens]
  rcases faulty : faults.lookup "token.update_last_used" with _ | (e | _)
  · exact ⟨(store.execute (.touchToken digest)).1, touched, [.executed _], by rw [same]; rfl, after⟩
  · exact ⟨_, store.tokens, _, rfl, differs⟩
  · exact absurd faulty answered

open Http in
/-- A program that conceals errors ends alike whether or not the use of a token can be recorded. -/
theorem run_withTokens {p : Program Response} (conceals : IsConcealing p) (e : StoreError)
    (differs : w.store.DiffersInUse tokens)
    (answered : w.storeFaults.lookup "token.update_last_used" ≠ some .hang) :
    (((w.withTokens tokens).failing "token.update_last_used" e).run p).value =
      (w.run p).value := by
  induction p generalizing w with
  | done response => rfl
  | call c next inductionHypothesis =>
    rw [value_call, value_call]
    obtain ⟨q, rfl, free, named, fails⟩ | ⟨unnamed, same⟩ :=
      (w.withTokens tokens).answer_failing "token.update_last_used" c
    · obtain ⟨digest, rfl⟩ := Statement.eq_touchToken named
      obtain ⟨answer, touched, events, given, after⟩ := answer_touch differs free answered digest
      rw [fails, given]
      have alike := (conceals _ _ _ .here).unreported digest rfl (.error e) answer
      show (((w.withTokens tokens).failing _ e).run (next (.error e))).value = _
      rw [alike]
      exact inductionHypothesis answer (conceals.onward answer) (w := w.withTokens touched) after
        answered
    · have kind : ∀ q, c = .query q → w.connection = .free →
          q.isReported = true ∨ q = .health := by
        rintro q rfl free
        obtain reported | health | ⟨digest, rfl⟩ := (conceals _ _ _ .here).kinds
        · exact .inl reported
        · exact .inr health
        · exact absurd rfl (unnamed _ rfl free)
      obtain ⟨given, after, faults⟩ := answer_withTokens differs kind
      rw [same, given]
      cases (w.answer c).value with
      | none => rfl
      | some answer =>
        exact inductionHypothesis answer (conceals.onward answer) after (faults ▸ answered)

end World

namespace Http

namespace ServerState

/-- The service in a world in which the statements with a name fail. -/
def failing (s : ServerState) (name : String) (e : StoreError) : ServerState :=
  s.withWorld (s.world.failing name e)

/-- The response to a request where a statement fails is what its program ends in there. -/
theorem response_failing (s : ServerState) (service : Service) (r : Request) (name : String)
    (e : StoreError) :
    ((s.failing name e).serve service r).map Served.response =
      (s.enter? service r).map fun came =>
        (((s.world.failing name e).run came.2).value.getD timedOut).forMethod r.method :=
  s.response_withWorld service r rfl

/-- The calls that are answered for a request, with their answers. -/
def exchanges (s : ServerState) (service : Service) (r : Request) : List Exchange :=
  match s.enter? service r with
  | none => []
  | some (entered, p) => entered.world.exchanges p

end ServerState

/-- No client learns of an error more than the name of the statement that failed. Two runs of a request
that differ in an internal error of a statement end in the same response, and wherever a request has
come, with whatever answers, its next statement conceals its error. If a reported statement has failed,
the response says so by the name of the statement alone. Where the clock of the store stands still, the
response is the same whether or not the use of a token could be recorded. -/
theorem store_errors_are_concealed (service : Service) (s : ServerState) (r : Request) :
    (∀ name e e', StoreError.IsInternal e → StoreError.IsInternal e' →
      ((s.failing name e).serve service r).map Served.response =
        ((s.failing name e').serve service r).map Served.response) ∧
    (∀ entered p, s.enter? service r = some (entered, p) →
      ∀ past q next, Leads p past (.call (.query q) next) → Conceals q next) ∧
    (∀ served q e, s.serve service r = some served →
      ⟨.query q, .error e⟩ ∈ s.exchanges service r → StoreError.IsInternal e →
      q.isReported = true → served.response = (storeFailed q.name).forMethod r.method) ∧
    ∀ e, s.world.store.clockStep = 0 →
      s.world.storeFaults.lookup "token.update_last_used" ≠ some .hang →
      ((s.failing "token.update_last_used" e).serve service r).map Served.response =
        (s.serve service r).map Served.response := by
  refine ⟨?_, fun _ _ => ServerState.isConcealing_enter, ?_, ?_⟩
  · intro name e e' internal internal'
    rw [ServerState.response_failing, ServerState.response_failing]
    refine Option.map_congr fun came enters => ?_
    rw [World.run_failing (ServerState.isConcealing_enter enters) internal internal']
  · intro served q e serves member internal reported
    rw [ServerState.serve_eq] at serves
    obtain ⟨⟨entered, p⟩, enters, rfl⟩ := Option.map_eq_some_iff.mp serves
    rw [ServerState.exchanges, enters] at member
    obtain ⟨point, leads, ends⟩ := entered.world.exchanges_lead p
    obtain ⟨front, back, split⟩ := List.append_of_mem member
    rw [show entered.world.exchanges p = _ from split] at leads
    obtain ⟨_, first, second⟩ := leads.split front
    obtain ⟨next, rfl, onward⟩ := second.head
    have told := (ServerState.isConcealing_enter enters _ _ _ first).reported reported e internal
    rw [show next _ = _ from told] at onward
    obtain ⟨-, rfl⟩ := onward.of_done
    show ((entered.world.run p).value.getD timedOut).forMethod r.method = _
    rw [ends _ rfl]
    rfl
  · intro e still answered
    have recorded : (s.serve service r).map Served.response = _ :=
      s.response_withWorld service r (w := s.world) rfl
    have unused : s.world.store.DiffersInUse s.world.store.tokens := ⟨still, rfl⟩
    rw [ServerState.response_failing, recorded]
    refine Option.map_congr fun came enters => ?_
    rw [← World.run_withTokens (ServerState.isConcealing_enter enters) e unused answered]
    rfl

namespace Sample

open StatusRegistry.Sample

/-- The service with a store that gives up looking for tokens. -/
def lost : ServerState := opening.failing "token.find_user" (.other ["pool timed out"])

/-- The service with a store whose clock stands still. -/
def still : ServerState :=
  opening.withWorld
    { opening.world with store := { opening.world.store with clockStep := 0 } }

/-- The lookup of the token of the deletion. -/
def lookup : Statement := .findTokenUser (Token.digestOf "secret" "sesame")

/-- The deletion comes to the lookup of its token. -/
theorem lost_enter : ∃ entered next, lost.enter? deployment removal =
      some (entered, .call (.query lookup) next) ∧
    lost.exchanges deployment removal = [⟨.query lookup, .error (.other ["pool timed out"])⟩] := by
  have enters : lost.enter? deployment removal =
      some (admitted.withWorld lost.world, authorized registry "secret" removal []
        (.delete (segment row.id.text))) := rfl
  have token : bearer? removal = some "sesame" := by decide +kernel
  rw [authorized_eq, token] at enters
  refine ⟨_, _, enters, ?_⟩
  rw [ServerState.exchanges, enters]
  rfl

end Sample

open Http.Sample in
/-- The deletion is refused in the name of the lookup of its token, whatever the error of the lookup,
and its response is the same whether or not the use of the token could be recorded. -/
theorem lookup_error_is_concealed : ∃ served entered next,
    lost.serve deployment removal = some served ∧
    served.response = storeFailed "token.find_user" ∧
    ((opening.failing "token.find_user" .disconnected).serve deployment removal).map
      Served.response = some served.response ∧
    lost.enter? deployment removal = some (entered, .call (.query lookup) next) ∧
    Conceals lookup next ∧
    ((still.failing "token.update_last_used" .closed).serve deployment removal).map
      Served.response = (still.serve deployment removal).map Served.response := by
  obtain ⟨entered, next, enters, asked⟩ := lost_enter
  have serves := lost.serve_eq deployment removal
  rw [enters] at serves
  obtain ⟨-, conceals, told, -⟩ := store_errors_are_concealed deployment lost removal
  obtain ⟨alike, -, -, -⟩ := store_errors_are_concealed deployment opening removal
  obtain ⟨-, -, -, unrecorded⟩ := store_errors_are_concealed deployment still removal
  have failed : ⟨.query lookup, .error (.other ["pool timed out"])⟩ ∈
      lost.exchanges deployment removal := by
    rw [asked]
    exact List.mem_cons_self
  refine ⟨_, entered, next, serves, told _ _ _ serves failed trivial rfl, ?_, enters,
    conceals _ _ enters _ _ _ .here, unrecorded .closed rfl nofun⟩
  rw [alike "token.find_user" .disconnected (.other ["pool timed out"]) trivial trivial]
  exact congrArg (Option.map Served.response) serves

end Http

end StatusRegistry
