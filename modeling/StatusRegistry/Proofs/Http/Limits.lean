import StatusRegistry.Proofs.Http.Authorization
import StatusRegistry.Proofs.Http.Pace
import StatusRegistry.Proofs.Http.Spelling

/-!
# The way past the limiters

Each group of requests has one limiter, which knows a request by its client alone. A limiter stands in
front of everything else: a request that it refuses comes to no call. So the due times of a service
after some visits are the due times of its quotas after the times of these visits, each client and
group by itself.
-/

namespace StatusRegistry.Http

open Program (Leads)

/-- Requests that share a limiter. -/
inductive Group where
  | reads
  | changes
  deriving DecidableEq, Repr

/-- The quota of a group. -/
def Group.quota : Group → Quota
  | .reads => .reads
  | .changes => .changes

/-- The group of an operation. -/
def Group.of (isChange : Bool) : Group := if isChange then .changes else .reads

/-- The limiter of a group. -/
def ServerState.limiter (s : ServerState) : Group → Limiter
  | .reads => s.reads
  | .changes => s.changes

/-- The service with another limiter of a group. -/
def ServerState.withLimiter (s : ServerState) : Group → Limiter → ServerState
  | .reads, l => { s with reads := l }
  | .changes, l => { s with changes := l }

/-- The group of the requests for a resource by a method. Methods that it does not answer count as
reads, and health is in no group. -/
def Resource.group? (resource : Resource) (method : Method) : Option Group :=
  match resource with
  | .health => none
  | _ => some (.of (((resource.operation? method).map Operation.isChange).getD false))

/-- The group of a request. -/
def Request.group? (r : Request) : Option Group :=
  (r.path?.bind Resource.ofPath).bind fun resource => resource.group? r.method

/-- What a limiter knows of a request: its client, in its group. -/
def Request.key? (r : Request) (service : Service) : Option (Ip × Group) :=
  r.group?.bind fun group => (r.client? service.behindProxy).map fun client => (client, group)

/-- A request that wants an operation on statuses is known by its client in the group of the
operation. -/
theorem Request.Wants.key?_eq {r : Request} {operation : Operation} (wants : r.Wants operation)
    (limited : operation ≠ .health) (service : Service) :
    r.key? service = (r.client? service.behindProxy).map fun client =>
      (client, Group.of operation.isChange) := by
  obtain ⟨resource, named, asked⟩ := wants
  have group : ∀ {asked}, resource ≠ .health → resource.operation? r.method = asked →
      resource.group? r.method = some (.of ((asked.map Operation.isChange).getD false)) := by
    rintro _ proper rfl
    cases resource <;> first | rfl | exact absurd rfl proper
  have proper : resource ≠ .health := by
    rintro rfl
    cases method : r.method <;> rw [method] at asked <;> cases asked <;> exact limited rfl
  rw [Request.key?, Request.group?, named, Option.bind_some, group proper asked]
  rfl

/-- When the next request under a key would be due. -/
def ServerState.due (s : ServerState) (key : Ip × Group) : Option Nat :=
  (s.limiter key.2).due.lookup key.1

namespace Limiter

variable {l after : Limiter} {q : Quota} {now : Nat} {client : Ip}

/-- Without the entries of a client the entries of others are found as before. -/
theorem lookup_others {other : Ip} (ne : other ≠ client) (entries : List (Ip × Nat)) :
    (entries.filter (·.1 ≠ client)).lookup other = entries.lookup other := by
  induction entries with
  | nil => rfl
  | cons entry entries inductionHypothesis =>
    by_cases same : entry.1 = client
    · rw [List.filter_cons_of_neg (by simpa using same), inductionHypothesis, List.lookup_cons,
        beq_false_of_ne (same ▸ ne)]
    · rw [List.filter_cons_of_pos (by simpa using same), List.lookup_cons, List.lookup_cons,
        inductionHypothesis]

/-- A request that is admitted moves the due time of its client, and of nobody else. -/
theorem of_accept_ok (accepts : l.accept q now client = .ok after) :
    q.Admits (l.due.lookup client) now ∧ ∀ other, after.due.lookup other =
      if other = client then q.next (l.due.lookup client) now else l.due.lookup other := by
  unfold accept at accepts
  dsimp only at accepts
  split at accepts
  · rename_i admits
    cases accepts
    refine ⟨admits, fun other => ?_⟩
    split
    · rename_i same
      rw [same, List.lookup_cons_self, Quota.next_of_admits admits]
      rfl
    · rename_i ne
      rw [List.lookup_cons, beq_false_of_ne ne]
      exact lookup_others ne l.due
  · cases accepts

/-- A request that is refused comes too early. -/
theorem of_accept_error {wait : Nat} (refuses : l.accept q now client = .error wait) :
    ¬q.Admits (l.due.lookup client) now := by
  unfold accept at refuses
  dsimp only at refuses
  split at refuses
  · cases refuses
  · assumption

end Limiter

namespace ServerState

variable {s after : ServerState} {isChange : Bool} {client : Ip}

/-- A request is passed through the limiter of its group. -/
theorem accept_eq (s : ServerState) (isChange : Bool) (client : Ip) :
    s.accept isChange client = ((s.limiter (.of isChange)).accept (Group.of isChange).quota
      s.world.now client).map (s.withLimiter (.of isChange)) := by
  cases isChange <;> rfl

/-- Another limiter of one group is no other limiter of the other. -/
theorem limiter_withLimiter (s : ServerState) (group other : Group) (l : Limiter) :
    (s.withLimiter group l).limiter other = if other = group then l else s.limiter other := by
  cases group <;> cases other <;> rfl

/-- A request that is admitted moves the due time under its key, and under no other. -/
theorem of_accept_ok (accepts : s.accept isChange client = .ok after) :
    (Group.of isChange).quota.Admits (s.due (client, .of isChange)) s.world.now ∧
    ∀ key, after.due key = if key = (client, .of isChange) then
      (Group.of isChange).quota.next (s.due key) s.world.now else s.due key := by
  rw [accept_eq] at accepts
  cases limited : (s.limiter (.of isChange)).accept (Group.of isChange).quota s.world.now client with
  | error wait =>
    rw [limited] at accepts
    cases accepts
  | ok l =>
    rw [limited] at accepts
    cases accepts
    obtain ⟨admits, moves⟩ := Limiter.of_accept_ok limited
    refine ⟨admits, ?_⟩
    rintro ⟨other, group⟩
    rw [due, limiter_withLimiter]
    by_cases same : group = .of isChange
    · subst same
      simp only [if_true, moves, Prod.mk.injEq, and_true]
      split
      · rename_i self
        rw [self]
        rfl
      · rfl
    · rw [if_neg same, if_neg fun keyed => same (congrArg Prod.snd keyed)]
      rfl

/-- A request that is refused comes too early. -/
theorem of_accept_error {wait : Nat} (refuses : s.accept isChange client = .error wait) :
    ¬(Group.of isChange).quota.Admits (s.due (client, .of isChange)) s.world.now := by
  rw [accept_eq] at refuses
  cases limited : (s.limiter (.of isChange)).accept (Group.of isChange).quota s.world.now client with
  | error wait => exact Limiter.of_accept_error limited
  | ok l =>
    rw [limited] at refuses
    cases refuses

end ServerState

/-- A program never ends in the response of a limiter. -/
def Unlimited (p : Program Response) : Prop :=
  ∀ past response, Leads p past (.done response) → response.status ≠ 429

/-- A failure is never told as the refusal of a limiter. -/
theorem ofFailure_unlimited (failure : Failure) : (Response.ofFailure failure).status ≠ 429 := by
  obtain ⟨kind, _, _⟩ := failure
  cases kind <;> simp [Response.ofFailure, FailureKind.httpStatus]

/-- A program that makes no call ends in its response. -/
theorem unlimited_done {response : Response} (other : response.status ≠ 429) :
    Unlimited (.done response) := by
  intro past ended here
  obtain ⟨-, same⟩ := here.of_done
  cases same
  exact other

/-- Performing an operation does not end in the response of a limiter. -/
theorem unlimited_perform (registry : Registry) (r : Request) (query : List UInt8)
    (caller : Option Caller) (operation : Operation) :
    Unlimited (perform registry r query caller operation) := by
  by_cases proper : operation = .health
  · subst proper
    intro past response here
    cases here with
    | ask onward =>
      cases onward with
      | ask onward =>
        obtain ⟨-, same⟩ := Leads.of_done onward
        cases same
        show (if _ then 200 else 503) ≠ 429
        split <;> decide
  · obtain ⟨failure, fails⟩ | ⟨served, status, performs, tell, tells, same⟩ :=
      performed registry r query caller proper
    · rw [fails]
      exact unlimited_done (ofFailure_unlimited failure)
    · rw [same]
      intro past response here
      obtain ⟨point, -, ended⟩ := here.of_told
      obtain ⟨outcome, -, rfl⟩ := Program.done_of_told ended.symm
      cases outcome with
      | error failure => exact ofFailure_unlimited failure
      | ok a =>
        rw [show (Response.ofExcept tell (.ok a)).status = status from tells a]
        cases performs <;> decide

/-- Performing a change behind the lookup of a token does not end in the response of a limiter. -/
theorem unlimited_authorized (registry : Registry) (secret : String) (r : Request)
    (query : List UInt8) (operation : Operation) :
    Unlimited (authorized registry secret r query operation) := by
  rw [authorized_eq]
  cases bearer? r with
  | none => exact unlimited_done (ofFailure_unlimited _)
  | some raw =>
    intro past response here
    cases here with
    | @ask _ _ answer _ _ onward =>
      rcases answer with e | (_ | user)
      · exact unlimited_done (ofFailure_unlimited _) _ _ onward
      · exact unlimited_done (ofFailure_unlimited _) _ _ onward
      · cases onward with
        | ask onward => exact unlimited_perform _ _ _ _ _ _ _ onward

/-- How a request passes the limiters on its way to a program. -/
inductive Passes (s : ServerState) (key? : Option (Ip × Group)) :
    ServerState → Program Response → Prop where
  /-- The request is in no group, or its client cannot be told. -/
  | free {p : Program Response} (unkeyed : key? = none) (unlimited : Unlimited p) :
      Passes s key? s p
  /-- The request is refused, comes to no call, and changes nothing. -/
  | refused {key : Ip × Group} {response : Response} (keyed : key? = some key)
      (refuses : ¬key.2.quota.Admits (s.due key) s.world.now) (status : response.status = 429) :
      Passes s key? s (.done response)
  /-- The request is admitted, and moves the due time under its own key only. -/
  | admitted {key : Ip × Group} {after : ServerState} {p : Program Response}
      (keyed : key? = some key) (admits : key.2.quota.Admits (s.due key) s.world.now)
      (moves : ∀ other, after.due other =
        if other = key then key.2.quota.next (s.due other) s.world.now else s.due other)
      (unlimited : Unlimited p) : Passes s key? after p

variable {service : Service} {s entered : ServerState} {r : Request} {p : Program Response}

/-- The methods of a resource do not change the status of a response. -/
theorem withAllowed_status (resource : Resource) (isAnswered : Bool) (response : Response) :
    (response.withAllowed resource isAnswered).status = response.status := by
  unfold Response.withAllowed
  split <;> rfl

/-- A request for a resource under limits passes the limiter of its group. -/
theorem passes_limited (s : ServerState) (service : Service) (r : Request) (query : List UInt8)
    (resource : Resource) :
    Passes s ((r.client? service.behindProxy).map fun client => (client,
        Group.of (((resource.operation? r.method).map Operation.isChange).getD false)))
      (s.enterLimited service r query resource).1 (s.enterLimited service r query resource).2 := by
  unfold ServerState.enterLimited
  generalize resource.operation? r.method = operation
  dsimp only
  cases r.client? service.behindProxy with
  | none =>
    refine .free rfl (unlimited_done ?_)
    rw [withAllowed_status]
    decide
  | some client =>
    dsimp only [Option.map_some]
    cases limited : s.accept ((operation.map Operation.isChange).getD false) client with
    | error wait =>
      exact .refused rfl (ServerState.of_accept_error limited) (withAllowed_status ..)
    | ok after =>
      obtain ⟨admits, moves⟩ := ServerState.of_accept_ok limited
      cases operation with
      | none =>
        have other : resource.notAllowed.status ≠ 429 := by simp [Resource.notAllowed]
        exact .admitted rfl admits moves (unlimited_done other)
      | some operation =>
        refine .admitted rfl admits moves ?_
        dsimp only
        split
        · exact unlimited_authorized _ _ _ _ _
        · exact unlimited_perform _ _ _ _ _

/-- A request for a resource passes the limiter of its group, if it is in one. -/
theorem passes_resource (s : ServerState) (service : Service) (r : Request) (query : List UInt8)
    (resource : Resource) :
    Passes s ((resource.group? r.method).bind fun group =>
        (r.client? service.behindProxy).map fun client => (client, group))
      (s.enterResource service r query resource).1
      (s.enterResource service r query resource).2 := by
  cases resource with
  | health =>
    unfold ServerState.enterResource
    dsimp only
    cases Resource.health.operation? r.method with
    | none =>
      have other : Resource.health.notAllowed.status ≠ 429 := by simp [Resource.notAllowed]
      exact .free rfl (unlimited_done other)
    | some operation => exact .free rfl (unlimited_perform _ _ _ _ _)
  | _ => exact passes_limited s service r query _

/-- A request passes the limiters by its key. -/
theorem passes (enters : s.enter? service r = some (entered, p)) :
    Passes s (r.key? service) entered p := by
  obtain ⟨parts, read, arrives⟩ := Option.map_eq_some_iff.mp enters
  obtain ⟨target, parsed, rfl⟩ := Option.map_eq_some_iff.mp read
  have path : r.path? = target.normalized.segments? := by
    rw [Request.path?, parsed]
    rfl
  rw [Request.key?, Request.group?, path]
  rw [Target.parts, ServerState.enterPath] at arrives
  cases named : target.normalized.segments?.bind Resource.ofPath with
  | none =>
    rw [named] at arrives
    cases arrives
    exact .free rfl (unlimited_done (by simp [notFound, Response.bare]))
  | some resource =>
    rw [named] at arrives
    have passed := passes_resource s service r target.normalized.query resource
    rw [show s.enterResource service r target.normalized.query resource = (entered, p) from arrives]
      at passed
    exact passed

variable {served : Served}

/-- A program that no limiter has refused does not end in the response of one. -/
theorem Unlimited.run_status (unlimited : Unlimited p) (w : World) :
    ((w.run p).value.getD timedOut).status ≠ 429 := by
  obtain ⟨past, point, _, _, -, leads, ends⟩ := w.run_converses p
  obtain ⟨response, rfl, ran⟩ | ⟨_, _, _, _, -, ran, -⟩ := ends
  · rw [ran]
    exact unlimited past response leads
  · rw [ran]
    simp [timedOut, Response.bare]

/-- A request that is served has come to a program past the limiters. -/
theorem passes_of_serves (serves : s.serve service r = some served) :
    ∃ entered p, s.enter? service r = some (entered, p) ∧ Passes s (r.key? service) entered p ∧
      served.response.status = ((entered.world.run p).value.getD timedOut).status ∧
      served.events = (entered.world.run p).events ∧
      served.state = { entered with world := (entered.world.run p).world } := by
  rw [ServerState.serve_eq] at serves
  obtain ⟨⟨entered, p⟩, enters, rfl⟩ := Option.map_eq_some_iff.mp serves
  exact ⟨entered, p, enters, passes enters, forMethod_status _ _, rfl, rfl⟩

/-- A request is refused by a limiter exactly if it comes too early under its key. -/
theorem refused_iff (serves : s.serve service r = some served) :
    served.response.status = 429 ↔
      ∃ key, r.key? service = some key ∧ ¬key.2.quota.Admits (s.due key) s.world.now := by
  obtain ⟨entered, p, -, passes, status, -, -⟩ := passes_of_serves serves
  rw [status]
  cases passes with
  | free unkeyed unlimited =>
    rw [unkeyed]
    exact iff_of_false (unlimited.run_status _) nofun
  | refused keyed refuses told => exact iff_of_true told ⟨_, keyed, refuses⟩
  | admitted keyed admits _ unlimited =>
    refine iff_of_false (unlimited.run_status _) ?_
    rintro ⟨_, same, refuses⟩
    cases keyed.symm.trans same
    exact refuses admits

/-- A request moves the due time under its own key at most. -/
theorem due_of_serves (serves : s.serve service r = some served) (key : Ip × Group) :
    served.state.due key = if r.key? service = some key then
      key.2.quota.next (s.due key) s.world.now else s.due key := by
  obtain ⟨entered, p, -, passes, -, -, state⟩ := passes_of_serves serves
  have same : served.state.due key = entered.due key := by
    rw [state]
    rfl
  rw [same]
  cases passes with
  | free unkeyed _ => rw [unkeyed, if_neg nofun]
  | @refused own _ keyed refuses _ =>
    rw [keyed]
    split
    · rename_i self
      cases self
      exact (Quota.next_of_not_admits refuses).symm
    · rfl
  | @admitted own _ _ keyed _ moves _ =>
    rw [keyed, moves]
    by_cases self : key = own
    · rw [if_pos self, if_pos (self ▸ rfl), self]
    · rw [if_neg self, if_neg fun same => self (Option.some.inj same).symm]

/-- A request that a limiter refuses comes to no call, and changes nothing. -/
theorem effectless_of_refused (serves : s.serve service r = some served)
    (refused : served.response.status = 429) :
    (∃ response, s.enter? service r = some (s, .done response)) ∧ served.events = [] ∧
      served.state = s := by
  obtain ⟨entered, p, enters, passes, status, events, state⟩ := passes_of_serves serves
  rw [status] at refused
  cases passes with
  | free _ unlimited => exact absurd refused (unlimited.run_status _)
  | refused => exact ⟨⟨_, enters⟩, events, state⟩
  | admitted _ _ _ unlimited => exact absurd refused (unlimited.run_status _)

/-- A life of a service. Requests are served one after the other, and between them the world changes
as it likes. -/
inductive Life (service : Service) (start : ServerState) : List Visit → ServerState → Prop where
  | refl : Life service start [] start
  | serve {visits : List Visit} {s : ServerState} {r : Request} {served : Served}
      (earlier : Life service start visits s) (serves : s.serve service r = some served) :
      Life service start (visits ++ [⟨s, r, served⟩]) served.state
  | lapse {visits : List Visit} {s : ServerState} (earlier : Life service start visits s)
      (world : World) : Life service start visits { s with world := world }

/-- The time of a visit. -/
def Visit.time (v : Visit) : Nat := v.before.world.now

/-- The visits under a key. -/
def visitsOf (service : Service) (key : Ip × Group) (visits : List Visit) : List Visit :=
  visits.filter fun v => v.request.key? service = some key

/-- The times of the visits under a key. -/
def timesOf (service : Service) (key : Ip × Group) (visits : List Visit) : List Nat :=
  (visitsOf service key visits).map Visit.time

variable {start finish : ServerState} {visits front back : List Visit} {v : Visit}

/-- A life comes to the service that each of its visits found, which then served it. -/
theorem Life.cut (life : Life service start (front ++ v :: back) finish) :
    Life service start front v.before ∧ v.before.serve service v.request = some v.served := by
  generalize same : front ++ v :: back = visits at life
  induction life generalizing back with
  | refl => exact absurd same (List.append_ne_nil_of_right_ne_nil _ (List.cons_ne_nil _ _))
  | lapse _ _ inductionHypothesis => exact inductionHypothesis same
  | @serve visits s r served earlier serves inductionHypothesis =>
    cases List.eq_nil_or_concat back with
    | inl empty =>
      subst empty
      obtain ⟨rfl, lastEq⟩ := List.append_inj' same rfl
      cases lastEq
      exact ⟨earlier, serves⟩
    | inr snoc =>
      obtain ⟨between, last, rfl⟩ := snoc
      rw [List.concat_eq_append, ← List.cons_append, ← List.append_assoc] at same
      exact inductionHypothesis (List.append_inj' same rfl).1

/-- The times under a key after one more visit. -/
theorem timesOf_snoc (service : Service) (key : Ip × Group) (visits : List Visit) (v : Visit) :
    timesOf service key (visits ++ [v]) =
      timesOf service key visits ++ if v.request.key? service = some key then [v.time] else [] := by
  rw [timesOf, visitsOf, List.filter_append, List.map_append]
  by_cases keyed : v.request.key? service = some key <;> simp [timesOf, visitsOf, keyed]

variable {world : World}

/-- The due time under a key is the one after the visits under the key. -/
theorem Life.due_eq (life : Life service (.make world) visits s) (key : Ip × Group) :
    s.due key = key.2.quota.dueAfter (timesOf service key visits) := by
  induction life with
  | refl =>
    obtain ⟨client, group⟩ := key
    cases group <;> rfl
  | lapse _ _ inductionHypothesis => exact inductionHypothesis
  | serve _ serves inductionHypothesis =>
    rw [due_of_serves serves, inductionHypothesis, timesOf_snoc]
    dsimp only
    split
    · exact (Quota.dueAfter_snoc _ _).symm
    · rw [List.append_nil]

/-- A visit is refused exactly if its key is not granted another request, after all the earlier
ones. -/
theorem Life.refused_iff (life : Life service (.make world) (front ++ v :: back) finish) :
    v.served.response.status = 429 ↔ ∃ key, v.request.key? service = some key ∧
      ¬key.2.quota.Grants (timesOf service key front) v.time := by
  obtain ⟨earlier, serves⟩ := life.cut
  rw [Http.refused_iff serves]
  simp only [earlier.due_eq]
  rfl

/-- A request whose target can be read may be made at any times. -/
theorem exists_life {r : Request} (readable : (Target.parse? r.target).isSome = true)
    (service : Service) (world : World) (times : List Nat) :
    ∃ visits finish, Life service (.make world) visits finish ∧
      visits.map Visit.time = times ∧ ∀ v ∈ visits, v.request = r := by
  induction times using List.reverseRecOn with
  | nil => exact ⟨[], _, .refl, rfl, fun _ member => absurd member List.not_mem_nil⟩
  | append_singleton times now inductionHypothesis =>
    obtain ⟨visits, s, life, rfl, same⟩ := inductionHypothesis
    obtain ⟨target, read⟩ := Option.isSome_iff_exists.mp readable
    have later := life.lapse { s.world with now := now }
    have serves : ({ s with world := { s.world with now := now } } : ServerState).serve service r =
        some _ := congrArg (Option.map _) read
    refine ⟨_, _, later.serve serves, List.map_append, ?_⟩
    exact List.forall_mem_append.mpr ⟨same, List.forall_mem_singleton.mpr rfl⟩

/-- Where all visits are of one request, the times under its key are the times of all visits. -/
theorem timesOf_single {r : Request} {key : Ip × Group} (keyed : r.key? service = some key)
    (same : ∀ v ∈ visits, v.request = r) : timesOf service key visits = visits.map Visit.time := by
  rw [timesOf, visitsOf, List.filter_eq_self.mpr]
  intro v member
  rw [same v member, keyed]
  exact decide_eq_true rfl

namespace Sample

/-- The client of the sample requests. -/
def client : Ip := .v4 127 0 0 1

/-- A listing of the statuses. -/
def listing : Request where
  method := .get
  target := segment "/api/v1/status"
  headers := []
  body := []
  peer := some ⟨.v4 127 0 0 1, 0, 4000⟩

/-- A request in a group. -/
def requestIn : Group → Request
  | .reads => listing
  | .changes => removal

/-- The requests are known by the same client, each in its group. -/
theorem requestIn_key (group : Group) :
    (requestIn group).key? deployment = some (client, group) := by
  cases group <;> rfl

/-- The targets of the requests can be read. -/
theorem requestIn_readable (group : Group) :
    (Target.parse? (requestIn group).target).isSome = true := by
  cases group <;> rfl

/-- A client may make some requests to a group at a steady pace, and a last one after them. -/
theorem steady_life (group : Group) (start gap n : Nat) : ∃ front v finish,
    Life deployment opening (front ++ [v]) finish ∧
    timesOf deployment (client, group) front = Quota.steady start gap n ∧
    v.time = start + n * gap ∧ v.request = requestIn group := by
  obtain ⟨visits, finish, life, times, same⟩ :=
    exists_life (requestIn_readable group) deployment opening.world (Quota.steady start gap (n + 1))
  rw [Quota.steady_succ] at times
  obtain rfl | ⟨front, v, rfl⟩ := List.eq_nil_or_concat visits
  · exact absurd times.symm (List.append_ne_nil_of_right_ne_nil _ (List.cons_ne_nil _ _))
  rw [List.concat_eq_append] at life times same
  rw [List.map_append] at times
  obtain ⟨earlier, last⟩ := List.append_inj' times rfl
  refine ⟨front, v, finish, life, ?_, List.head_eq_of_cons_eq last, ?_⟩
  · rw [← earlier]
    exact timesOf_single (requestIn_key group) fun v member => same v (List.mem_append_left _ member)
  · exact same v (List.mem_append_right _ (List.mem_singleton.mpr rfl))

end Sample

end StatusRegistry.Http
