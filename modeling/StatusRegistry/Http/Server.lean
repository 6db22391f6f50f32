import StatusRegistry.Http.Handler
import StatusRegistry.Http.Limit
import StatusRegistry.World

/-!
# The service

How a request passes through the service: its target is read and brought into form, its resource is
found, its client's limit is checked, a change is authorized, and the operation is performed. What
is refused on the way goes no further, so it reaches neither the store nor the cache.

A request whose program never ends is answered when its time is over.
-/

namespace StatusRegistry.Http

/-- What governs the service. -/
structure Service where
  registry : Registry
  secret : String
  behindProxy : Bool

/-- The service at work: its surroundings, and the limiters of reads and changes. -/
structure ServerState where
  world : World
  reads : Limiter
  changes : Limiter

/-- A service at its start. -/
def ServerState.make (world : World) : ServerState := ⟨world, .empty, .empty⟩

/-- A response, what happened for it, and the service after it. -/
structure Served where
  response : Response
  events : List Event
  state : ServerState

/-- The response to a path that names nothing. -/
def notFound : Response := .bare 404

/-- The response to a request that was not answered in time. -/
def timedOut : Response := .bare 408

/-- The response to a client that cannot be told from others. -/
def noClient : Response := ⟨500, [], .text "Unable To Extract Key!"⟩

/-- The response to a client that has to wait; it is told whole seconds. -/
def tooMany (wait : Nat) : Response :=
  let seconds := toString (wait / 1000000000)
  ⟨429, [("retry-after", seconds), ("x-ratelimit-after", seconds)],
    .text ("Too Many Requests! Wait for " ++ seconds ++ "s")⟩

/-- The response without content where only headers were asked for. -/
def Response.forMethod (r : Response) (m : Method) : Response :=
  if m = .head then r.withoutBody else r

/-- Adds the methods of a resource to the response to another method. -/
def Response.withAllowed (resource : Resource) (isAnswered : Bool) (r : Response) : Response :=
  if isAnswered then r else { r with headers := ("allow", resource.allowed) :: r.headers }

namespace ServerState

/-- A response that nothing was done for. -/
def refuse (s : ServerState) (r : Response) : Served := ⟨r, [], s⟩

/-- Runs a program for its response. -/
def runProgram (s : ServerState) (p : Program Response) : Served :=
  let outcome := s.world.run p
  ⟨outcome.value.getD timedOut, outcome.events, { s with world := outcome.world }⟩

/-- Passes a request of a client through the limiter of its group. -/
def accept (s : ServerState) (isChange : Bool) (client : Ip) : Except Nat ServerState :=
  if isChange then
    (s.changes.accept Quota.changes s.world.now client).map fun l => { s with changes := l }
  else (s.reads.accept Quota.reads s.world.now client).map fun l => { s with reads := l }

/-- Answers a request for a resource under limits. Methods that a resource does not answer count as
reads. -/
def serveLimited (s : ServerState) (service : Service) (r : Request) (target : Target)
    (resource : Resource) : Served :=
  let operation := resource.operation? r.method
  let isChange := (operation.map Operation.isChange).getD false
  let refused := Response.withAllowed resource operation.isSome
  match r.client? service.behindProxy with
  | none => s.refuse (refused noClient)
  | some client =>
    match s.accept isChange client with
    | .error wait => s.refuse (refused (tooMany wait))
    | .ok s =>
      match operation with
      | none => s.refuse resource.notAllowed
      | some operation =>
        s.runProgram
          (if isChange then authorized service.registry service.secret r target.query operation
           else perform service.registry r target.query none operation)

/-- Answers a request for a resource. Health is not limited. -/
def serveResource (s : ServerState) (service : Service) (r : Request) (target : Target)
    (resource : Resource) : Served :=
  match resource with
  | .health =>
    match resource.operation? r.method with
    | some operation => s.runProgram (perform service.registry r target.query none operation)
    | none => s.refuse resource.notAllowed
  | _ => s.serveLimited service r target resource

/-- Answers a request with a readable target. -/
def serveTarget (s : ServerState) (service : Service) (r : Request) (target : Target) : Served :=
  let target := target.normalized
  match target.segments?.bind Resource.ofPath with
  | none => s.refuse notFound
  | some resource => s.serveResource service r target resource

/-- Answers a request, if its target can be read. -/
def serve (s : ServerState) (service : Service) (r : Request) : Option Served :=
  (Target.parse? r.target).map fun target =>
    let served := s.serveTarget service r target
    { served with response := served.response.forMethod r.method }

/-- Answers a request at the resources of statuses alone, for a caller known from elsewhere:
without limits, authorization or a deadline. -/
def serveDirectly (s : ServerState) (registry : Registry) (r : Request) (caller : Option Caller) :
    Option Served :=
  (Target.parse? r.target).map fun target =>
    let served :=
      match target.segments?.bind Resource.ofSegments with
      | none => s.refuse notFound
      | some resource =>
        match resource.operation? r.method with
        | none => s.refuse resource.notAllowed
        | some operation => s.runProgram (perform registry r target.query caller operation)
    { served with response := served.response.forMethod r.method }

end ServerState

end StatusRegistry.Http
