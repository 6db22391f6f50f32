import StatusRegistry.Http.Server
import StatusRegistry.Proofs.Conversation

/-!
# The programs that requests come to

On its way through the service a request comes to one program, which is then run. A request that is
refused on the way comes to no call at all, a read to its operation, and a change that the limiter
admits to its operation behind the lookup of a token. What runs behind the lookup is an operation of
the registry whose outcome is told, and nothing else.
-/

namespace StatusRegistry.Http

open Program (Leads)
open Conduct (isIdle)

/-- The parts of the path of a request, brought into form. -/
def Request.path? (r : Request) : Option (List (List UInt8)) :=
  (Target.parse? r.target).bind fun target => target.normalized.segments?

/-- The path of statuses, with what stands below it. -/
def statusPath (below : List (List UInt8)) : List (List UInt8) :=
  segment "api" :: segment "v1" :: segment "status" :: below

/-- The path of a request names a status. -/
def Request.Names (r : Request) (id : Uuid) : Prop :=
  ∃ name, r.path? = some (statusPath [name]) ∧ readId name = .ok id

/-- A request is a post to the statuses, or a put or a deletion to one of them, by whatever name. -/
inductive Request.IsWrite (r : Request) : Prop where
  | post (method : r.method = .post) (path : r.path? = some (statusPath []))
  | put {name : List UInt8} (method : r.method = .put)
      (path : r.path? = some (statusPath [name])) (nonempty : name ≠ [])
      (item : name ≠ segment "search")
  | delete {name : List UInt8} (method : r.method = .delete)
      (path : r.path? = some (statusPath [name])) (nonempty : name ≠ [])
      (item : name ≠ segment "search")

/-- A request wants an operation of a resource. -/
def Request.Wants (r : Request) (operation : Operation) : Prop :=
  ∃ resource, r.path?.bind Resource.ofPath = some resource ∧
    resource.operation? r.method = some operation

/-- The limiter of changes admits a request. -/
def ServerState.Admits (s : ServerState) (service : Service) (r : Request) : Prop :=
  ∃ client after, r.client? service.behindProxy = some client ∧ s.accept true client = .ok after

/-- What names a resource below the statuses. -/
theorem ofSegments_cases {below : List (List UInt8)} {resource : Resource}
    (named : Resource.ofSegments below = some resource) :
    (below = [segment "status"] ∧ resource = .collection) ∨
    (below = [segment "status", segment "search"] ∧ resource = .search) ∨
    ∃ name, below = [segment "status", name] ∧ resource = .item name ∧ name ≠ [] ∧
      name ≠ segment "search" := by
  unfold Resource.ofSegments at named
  split at named
  · split at named
    · rename_i root
      cases named
      exact .inl ⟨by rw [root], rfl⟩
    · cases named
  · rename_i root last
    split at named
    · cases named
    · rename_i proper
      simp only [ne_eq, Bool.or_eq_true, decide_eq_true_eq, List.isEmpty_iff, not_or,
        Decidable.not_not] at proper
      obtain ⟨rfl, nonempty⟩ := proper
      split at named
      · rename_i search
        cases named
        exact .inr (.inl ⟨by rw [search], rfl⟩)
      · rename_i item
        cases named
        exact .inr (.inr ⟨last, rfl, rfl, nonempty, item⟩)
  · cases named

/-- What names a resource. -/
theorem ofPath_cases {path : List (List UInt8)} {resource : Resource}
    (named : Resource.ofPath path = some resource) :
    resource = .health ∨ ∃ below, path = segment "api" :: segment "v1" :: below ∧
      Resource.ofSegments below = some resource := by
  unfold Resource.ofPath at named
  split at named
  · split at named
    · cases named
      exact .inl rfl
    · split at named
      · split at named
        · rename_i root
          simp only [Bool.and_eq_true, decide_eq_true_eq] at root
          obtain ⟨rfl, rfl⟩ := root
          exact .inr ⟨_, rfl, named⟩
        · cases named
      · cases named
  · cases named

/-- What asks a resource for a change. -/
theorem operation?_change {resource : Resource} {method : Method} {operation : Operation}
    (asked : resource.operation? method = some operation) (change : operation.isChange = true) :
    (resource = .collection ∧ method = .post ∧ operation = .create) ∨
    ∃ name, resource = .item name ∧
      (method = .put ∧ operation = .update name ∨ method = .delete ∧ operation = .delete name) := by
  cases resource with
  | health => cases method <;> cases asked <;> cases change
  | search => cases method <;> cases asked <;> cases change
  | collection =>
    cases method with
    | post =>
      cases asked
      exact .inl ⟨rfl, rfl, rfl⟩
    | _ => cases asked <;> cases change
  | item name =>
    cases method with
    | put =>
      cases asked
      exact .inr ⟨name, rfl, .inl ⟨rfl, rfl⟩⟩
    | delete =>
      cases asked
      exact .inr ⟨name, rfl, .inr ⟨rfl, rfl⟩⟩
    | _ => cases asked <;> cases change

/-- Whether a method asks for changes. -/
def Method.isChange : Method → Bool
  | .post => true
  | .put => true
  | .delete => true
  | _ => false

/-- The method of a request tells whether it wants a change. -/
theorem Request.Wants.isChange {r : Request} {operation : Operation} (wants : r.Wants operation) :
    operation.isChange = r.method.isChange := by
  obtain ⟨resource, -, asked⟩ := wants
  cases resource <;> cases method : r.method <;> rw [method] at asked <;> cases asked <;> rfl

/-- What a request wants if it wants a change. -/
inductive Request.WantsChange (r : Request) : Operation → Prop where
  | create (method : r.method = .post) (path : r.path? = some (statusPath [])) :
      WantsChange r .create
  | update {name : List UInt8} (method : r.method = .put)
      (path : r.path? = some (statusPath [name])) : WantsChange r (.update name)
  | delete {name : List UInt8} (method : r.method = .delete)
      (path : r.path? = some (statusPath [name])) : WantsChange r (.delete name)

/-- A request that wants a change wants it by its method and path. -/
theorem Request.Wants.change {r : Request} {operation : Operation} (wants : r.Wants operation)
    (change : operation.isChange = true) : r.WantsChange operation := by
  obtain ⟨resource, named, asked⟩ := wants
  obtain ⟨path, given, named⟩ := Option.bind_eq_some_iff.mp named
  have below : ∀ below, path = segment "api" :: segment "v1" :: below →
      r.path? = some (segment "api" :: segment "v1" :: below) := fun _ same => same ▸ given
  obtain ⟨rfl, method, rfl⟩ | ⟨name, rfl, either⟩ := operation?_change asked change
  · obtain ⟨⟨⟩⟩ | ⟨_, same, named⟩ := ofPath_cases named
    obtain ⟨rfl, -⟩ | ⟨-, ⟨⟩⟩ | ⟨_, -, ⟨⟩, -⟩ := ofSegments_cases named
    exact .create method (below _ same)
  · obtain ⟨⟨⟩⟩ | ⟨_, same, named⟩ := ofPath_cases named
    obtain ⟨-, ⟨⟩⟩ | ⟨-, ⟨⟩⟩ | ⟨_, rfl, ⟨⟩, -⟩ := ofSegments_cases named
    obtain ⟨method, rfl⟩ | ⟨method, rfl⟩ := either
    · exact .update method (below _ same)
    · exact .delete method (below _ same)

/-- The path of statuses names what stands below it. -/
theorem ofPath_statusPath (below : List (List UInt8)) :
    Resource.ofPath (statusPath below) = Resource.ofSegments (segment "status" :: below) := by
  simp [statusPath, Resource.ofPath]

/-- A write wants a change. -/
theorem Request.IsWrite.wants {r : Request} (write : r.IsWrite) :
    ∃ operation, r.Wants operation ∧ operation.isChange = true := by
  have item : ∀ {name}, r.path? = some (statusPath [name]) → name ≠ [] →
      name ≠ segment "search" → r.path?.bind Resource.ofPath = some (.item name) := by
    intro name path nonempty item
    rw [path, Option.bind_some, ofPath_statusPath]
    simp [Resource.ofSegments, nonempty, item]
  cases write with
  | post method path =>
    refine ⟨.create, ⟨.collection, ?_, by rw [method]; rfl⟩, rfl⟩
    rw [path, Option.bind_some, ofPath_statusPath]
    simp [Resource.ofSegments]
  | put method path nonempty proper =>
    exact ⟨.update _, ⟨_, item path nonempty proper, by rw [method]; rfl⟩, rfl⟩
  | delete method path nonempty proper =>
    exact ⟨.delete _, ⟨_, item path nonempty proper, by rw [method]; rfl⟩, rfl⟩

/-- A response tells of success. -/
def Response.Succeeds (response : Response) : Prop := 200 ≤ response.status ∧ response.status < 300

/-- The programs that a request may come to. -/
inductive Plans (service : Service) (s : ServerState) (r : Request) : Program Response → Prop where
  /-- The request is refused on the way, which befalls no write that the limiter admits. -/
  | refusal {response : Response} (fails : ¬response.Succeeds)
      (unadmitted : r.IsWrite → ¬s.Admits service r) : Plans service s r (.done response)
  /-- The request is for a read. -/
  | read {query : List UInt8} {operation : Operation} (wants : r.Wants operation)
      (reads : operation.isChange = false) :
      Plans service s r (perform service.registry r query none operation)
  /-- The request is for a change. -/
  | change {query : List UInt8} {operation : Operation} (wants : r.Wants operation)
      (changes : operation.isChange = true) :
      Plans service s r (authorized service.registry service.secret r query operation)

/-- What was done for a request was the run of a program. -/
structure Served.Ran (served : Served) (s : ServerState) (p : Program Response) : Prop where
  response : served.response = (s.world.run p).value.getD timedOut
  events : served.events = (s.world.run p).events
  world : served.state.world = (s.world.run p).world

/-- The limiters leave the world alone. -/
theorem ServerState.accept_world {s after : ServerState} {isChange : Bool} {client : Ip}
    (admitted : s.accept isChange client = .ok after) : after.world = s.world := by
  unfold accept at admitted
  split at admitted
  · cases limited : s.changes.accept Quota.changes s.world.now client with
    | error wait =>
      rw [limited] at admitted
      cases admitted
    | ok l =>
      rw [limited] at admitted
      cases admitted
      rfl
  · cases limited : s.reads.accept Quota.reads s.world.now client with
    | error wait =>
      rw [limited] at admitted
      cases admitted
    | ok l =>
      rw [limited] at admitted
      cases admitted
      rfl

variable {service : Service} {s after : ServerState} {r : Request} {target : Target}
  {resource : Resource} {response : Response}

/-- The methods of a resource do not turn a failure into a success. -/
theorem Response.withAllowed_fails (isAnswered : Bool) (fails : ¬response.Succeeds) :
    ¬(response.withAllowed resource isAnswered).Succeeds := by
  unfold withAllowed
  split <;> exact fails

/-- A refusal is the run of no call. -/
theorem ServerState.refuse_ran (same : after.world = s.world) :
    (after.refuse response).Ran s (.done response) := ⟨rfl, rfl, same⟩

/-- A program is run in the world of the service. -/
theorem ServerState.runProgram_ran (same : after.world = s.world) (p : Program Response) :
    (after.runProgram p).Ran s p := by
  unfold runProgram
  rw [same]
  exact ⟨rfl, rfl, rfl⟩

/-- A write to a resource wants a change of it. -/
theorem Request.IsWrite.isChange (write : r.IsWrite)
    (named : r.path?.bind Resource.ofPath = some resource) :
    ∃ operation, resource.operation? r.method = some operation ∧ operation.isChange = true := by
  obtain ⟨operation, ⟨_, same, asked⟩, change⟩ := write.wants
  cases named.symm.trans same
  exact ⟨operation, asked, change⟩

/-- A request for a resource under limits comes to a plan. -/
theorem serveLimited_plans (named : r.path?.bind Resource.ofPath = some resource) :
    ∃ p, Plans service s r p ∧ (s.serveLimited service r target resource).Ran s p := by
  unfold ServerState.serveLimited
  dsimp only
  split
  · rename_i unknown
    refine ⟨_, .refusal (Response.withAllowed_fails _ ?_) ?_, ServerState.refuse_ran rfl⟩
    · simp [Response.Succeeds, noClient]
    · rintro - ⟨client, _, known, -⟩
      cases unknown.symm.trans known
  · rename_i client known
    split
    · rename_i wait limited
      refine ⟨_, .refusal (Response.withAllowed_fails _ ?_) ?_, ServerState.refuse_ran rfl⟩
      · simp [Response.Succeeds, tooMany]
      · rintro write ⟨_, after, same, admitted⟩
        cases known.symm.trans same
        obtain ⟨operation, asked, change⟩ := write.isChange named
        simp only [asked, Option.map_some, change, Option.getD_some] at limited
        cases limited.symm.trans admitted
    · rename_i after admitted
      have same := ServerState.accept_world admitted
      split
      · rename_i unanswered
        refine ⟨_, .refusal ?_ ?_, ServerState.refuse_ran same⟩
        · simp [Response.Succeeds, Resource.notAllowed]
        · intro write
          obtain ⟨operation, asked, -⟩ := write.isChange named
          cases unanswered.symm.trans asked
      · rename_i operation answered
        have wants : r.Wants operation := ⟨resource, named, answered⟩
        simp only [answered, Option.map_some, Option.getD_some]
        refine ⟨_, ?_, ServerState.runProgram_ran same _⟩
        split
        · rename_i change
          exact .change wants change
        · rename_i read
          exact .read wants (Bool.eq_false_iff.mpr read)

/-- A request for a resource comes to a plan. -/
theorem serveResource_plans (named : r.path?.bind Resource.ofPath = some resource) :
    ∃ p, Plans service s r p ∧ (s.serveResource service r target resource).Ran s p := by
  unfold ServerState.serveResource
  split
  · have unwritten : ¬r.IsWrite := by
      intro write
      obtain ⟨operation, asked, change⟩ := write.isChange named
      obtain ⟨⟨⟩, -⟩ | ⟨_, ⟨⟩, -⟩ := operation?_change asked change
    split
    · rename_i operation answered
      refine ⟨_, .read ⟨_, named, answered⟩ ?_, ServerState.runProgram_ran rfl _⟩
      cases change : operation.isChange with
      | false => rfl
      | true => obtain ⟨⟨⟩, -⟩ | ⟨_, ⟨⟩, -⟩ := operation?_change answered change
    · refine ⟨_, .refusal ?_ fun write => absurd write unwritten, ServerState.refuse_ran rfl⟩
      simp [Response.Succeeds, Resource.notAllowed]
  · exact serveLimited_plans named

/-- Every request whose target can be read comes to a plan, which is run. -/
theorem serve_plans {served : Served} (serves : s.serve service r = some served) :
    ∃ p, Plans service s r p ∧
      served.response = ((s.world.run p).value.getD timedOut).forMethod r.method ∧
      served.events = (s.world.run p).events ∧ served.state.world = (s.world.run p).world := by
  obtain ⟨target, read, rfl⟩ := Option.map_eq_some_iff.mp serves
  have path : r.path? = target.normalized.segments? := by
    rw [Request.path?, read]
    rfl
  have planned : ∃ p, Plans service s r p ∧ (s.serveTarget service r target).Ran s p := by
    unfold ServerState.serveTarget
    dsimp only
    split
    · rename_i unnamed
      refine ⟨_, .refusal ?_ ?_, ServerState.refuse_ran rfl⟩
      · simp [Response.Succeeds, notFound, Response.bare]
      · intro write
        obtain ⟨_, ⟨_, named, -⟩, -⟩ := write.wants
        rw [path] at named
        cases unnamed.symm.trans named
    · rename_i named
      exact serveResource_plans (path ▸ named)
  obtain ⟨p, plan, ran⟩ := planned
  exact ⟨p, plan, congrArg (Response.forMethod · r.method) ran.response, ran.events, ran.world⟩

/-- What an operation of the service asks of the registry for a caller, if its request can be read,
and the status of the response that tells of its success. -/
inductive Performs (caller : Option Caller) :
    Operation → StatusRegistry.Operation → Nat → Prop where
  | create {c : Caller} {draft : Draft} (known : caller = some c) :
      Performs caller .create (.create c draft) 201
  | update {c : Caller} {name : List UInt8} {id : Uuid} {revision : Revision}
      (known : caller = some c) (named : readId name = .ok id) :
      Performs caller (.update name) (.update c id revision) 200
  | delete {c : Caller} {name : List UInt8} {id : Uuid} (known : caller = some c)
      (named : readId name = .ok id) : Performs caller (.delete name) (.delete c id) 204
  | get {name : List UInt8} {id : Uuid} (named : readId name = .ok id) :
      Performs caller (.get name) (.get id) 200
  | list {page : PageRequest} {filter : Filter} : Performs caller .list (.list page filter) 200
  | search {text : String} {page : PageRequest} : Performs caller .search (.search text page) 200

/-- A program serves an operation and tells its outcome. -/
def Tells (registry : Registry) (p : Program Response) (operation : StatusRegistry.Operation)
    (status : Nat) : Prop :=
  ∃ tell : operation.Result → Response, (∀ a, (tell a).status = status) ∧
    p = (registry.serve operation).bind fun outcome => .done (Response.ofExcept tell outcome)

/-- A program fails before it makes a call, or does what an operation asks of the registry and tells
its outcome. -/
def Performed (registry : Registry) (caller : Option Caller) (operation : Operation)
    (p : Program Response) : Prop :=
  (∃ failure, p = .done (Response.ofFailure failure)) ∨
    ∃ served status, Performs caller operation served status ∧ Tells registry p served status

/-- An operation that reads a part of its request fails with the reading or goes on with what it has
read. -/
theorem Performed.reading {registry : Registry} {caller : Option Caller} {operation : Operation}
    {α β : Type} {reading : Except Failure α} {next : α → Action β} {success : β → Response}
    (onward : ∀ a, reading = .ok a →
      Performed registry caller operation (respond (next a) success)) :
    Performed registry caller operation
      (respond (Action.ofExcept reading >>= next) success) := by
  cases reading with
  | error failure => exact .inl ⟨failure, rfl⟩
  | ok a => exact onward a rfl

/-- A caller that is attached to a request is known. -/
theorem known_of_attached {caller : Option Caller} {c : Caller} (known : attached caller = .ok c) :
    caller = some c := by
  cases caller with
  | none => cases known
  | some _ =>
    cases known
    rfl

/-- Every operation but the question for the health is performed by the registry. -/
theorem performed (registry : Registry) (r : Request) (query : List UInt8)
    (caller : Option Caller) {operation : Operation} (proper : operation ≠ .health) :
    Performed registry caller operation (perform registry r query caller operation) := by
  cases operation with
  | health => exact absurd rfl proper
  | create =>
    refine .reading fun c known => .reading fun draft _ => .inr ?_
    exact ⟨.create c draft, _, .create (known_of_attached known),
      fun s => Response.json 201 s.toJson, fun _ => rfl, rfl⟩
  | update name =>
    refine .reading fun c known => .reading fun id named => .reading fun revision _ => .inr ?_
    exact ⟨.update c id revision, _, .update (known_of_attached known) named,
      fun s => Response.json 200 s.toJson, fun _ => rfl, rfl⟩
  | delete name =>
    refine .reading fun c known => .reading fun id named => .inr ?_
    exact ⟨.delete c id, _, .delete (known_of_attached known) named,
      fun _ => Response.bare 204, fun _ => rfl, rfl⟩
  | get name =>
    refine .reading fun id named => .inr ?_
    exact ⟨.get id, _, .get named, fun s => Response.json 200 s.toJson, fun _ => rfl, rfl⟩
  | list =>
    refine .reading fun asked _ => .inr ?_
    exact ⟨.list asked.1 asked.2, _, .list, fun l => Response.json 200 l.toJson, fun _ => rfl, rfl⟩
  | search =>
    refine .reading fun asked _ => .inr ?_
    exact ⟨.search asked.2 asked.1, _, .search, fun l => Response.json 200 l.toJson,
      fun _ => rfl, rfl⟩

/-- A change is performed for the user of the token, once that it was used has been recorded. -/
theorem authorized_eq (registry : Registry) (secret : String) (r : Request) (query : List UInt8)
    (operation : Operation) :
    authorized registry secret r query operation =
      match bearer? r with
      | none => .done (Response.ofFailure
          (Failure.unauthorized "Authorization header is missing or not a Bearer token"))
      | some raw =>
        .call (.query (.findTokenUser (Token.digestOf secret raw))) fun
          | .ok (some user) => .call (.query (.touchToken (Token.digestOf secret raw))) fun _ =>
              perform registry r query (some ⟨user⟩) operation
          | .ok none => .done (Response.ofFailure (Failure.unauthorized "Invalid or revoked token"))
          | .error e => .done (Response.ofFailure
              (e.toFailure.withOperation
                (Statement.findTokenUser (Token.digestOf secret raw)).name)) := by
  unfold authorized identify
  cases bearer? r with
  | none => rfl
  | some raw =>
    apply congrArg (Program.call _)
    funext answer
    rcases answer with e | (_ | user)
    · rfl
    · rfl
    · apply congrArg (Program.call _)
      funext answer
      cases answer <;> rfl

end StatusRegistry.Http
