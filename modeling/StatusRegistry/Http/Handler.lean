import StatusRegistry.Authentication
import StatusRegistry.Http.MediaType
import StatusRegistry.Http.Route
import StatusRegistry.Registry
import StatusRegistry.Status.Body
import StatusRegistry.Status.Query

/-!
# Answering operations

How each operation reads its request, what it does, and how the outcome is told. A change looks for
its caller first, then at the identifier in the path, then at the body, so a request with several
faults is refused for the first of these.
-/

namespace StatusRegistry.Http

/-- The version of the service. -/
def serviceVersion : String := "0.1.0"

/-- The greatest number of octets of a body. -/
def maxBodySize : Nat := 2097152

/-- The identifier that a path segment spells. -/
def readId (segment : List UInt8) : Except Failure Uuid :=
  match Utf8.decode? (Percent.decode segment) with
  | none => .error (Failure.invalidPath "Invalid URL: Invalid UTF-8 in `id`")
  | some text =>
    match Uuid.parse? text with
    | some id => .ok id
    | none =>
      .error (Failure.invalidPath ("Invalid URL: Cannot parse `id` with value `" ++
        String.ofList text ++ "`: UUID parsing failed"))

/-- The document in the body of a request. -/
def readBody {α : Type} (r : Request) (decode : List UInt8 → Except Json.Problem α) :
    Except Failure α :=
  if !((r.headerText? "content-type").map MediaType.isJson).getD false then
    .error (Failure.invalidBody "Expected request with `Content-Type: application/json`")
  else if r.body.length > maxBodySize then
    .error (Failure.invalidBody "Failed to buffer the request body: length limit exceeded")
  else
    match decode r.body with
    | .ok a => .ok a
    | .error problem => .error (Failure.invalidBody (bodyReason problem))

/-- The outcome of reading a query. -/
def orInvalidQuery {α : Type} : Except QueryProblem α → Except Failure α
  | .ok a => .ok a
  | .error problem => .error (Failure.invalidQuery problem.reason)

/-- The caller attached to a request. -/
def attached : Option Caller → Except Failure Caller
  | some caller => .ok caller
  | none => .error (Failure.unauthorized "No caller identity attached to request")

/-- One check of the service's health. -/
def checkJson (isOk : Bool) (message : String) : Json :=
  .obj [("status", .str (if isOk then "ok" else "error")), ("message", .str message)]

/-- Asks the cache and the store whether they answer. The cache is asked first, since it always
answers. -/
def health : Program Response := do
  let (cache, kind) ← Program.ofCall .cacheHealth
  let store ← StatusRows.isReachable
  let isHealthy := store && cache
  return Response.json (if isHealthy then 200 else 503) (.obj [
    ("status", .str (if isHealthy then "healthy" else "degraded")),
    ("version", .str serviceVersion),
    ("checks", .obj [
      ("database", checkJson store (if store then "Connected" else "Database unreachable")),
      ("cache", checkJson cache (kind ++ (if cache then " reachable" else " unreachable")))])])

/-- The response to an action that yields a value. -/
def respond {α : Type} (action : Action α) (success : α → Response) : Program Response := do
  return Response.ofExcept success (← action.run)

/-- Creates the status that the body describes. -/
def create (r : Request) (caller : Option Caller) : Action Status := do
  let caller ← Action.ofExcept (attached caller)
  let draft ← Action.ofExcept (readBody r Draft.decode)
  Registry.create caller draft

/-- Revises the status that the path names as the body describes. -/
def update (registry : Registry) (r : Request) (caller : Option Caller) (segment : List UInt8) :
    Action Status := do
  let caller ← Action.ofExcept (attached caller)
  let id ← Action.ofExcept (readId segment)
  let revision ← Action.ofExcept (readBody r Revision.decode)
  registry.update caller id revision

/-- Deletes the status that the path names. -/
def delete (registry : Registry) (caller : Option Caller) (segment : List UInt8) :
    Action Unit := do
  let caller ← Action.ofExcept (attached caller)
  let id ← Action.ofExcept (readId segment)
  registry.delete caller id

/-- The status that the path names. -/
def get (registry : Registry) (segment : List UInt8) : Action Status := do
  let id ← Action.ofExcept (readId segment)
  registry.get id

/-- The page that the query asks for. -/
def list (query : List UInt8) : Action Listing := do
  let (page, filter) ← Action.ofExcept (orInvalidQuery (readListQuery query))
  Registry.list page filter

/-- The page of found statuses that the query asks for. -/
def search (query : List UInt8) : Action Listing := do
  let (page, text) ← Action.ofExcept (orInvalidQuery (readSearchQuery query))
  Registry.search text page

/-- Performs an operation for a caller and answers it. -/
def perform (registry : Registry) (r : Request) (query : List UInt8) (caller : Option Caller) :
    Operation → Program Response
  | .health => health
  | .list => respond (list query) fun l => Response.json 200 l.toJson
  | .search => respond (search query) fun l => Response.json 200 l.toJson
  | .create => respond (create r caller) fun s => Response.json 201 s.toJson
  | .get segment => respond (get registry segment) fun s => Response.json 200 s.toJson
  | .update segment =>
    respond (update registry r caller segment) fun s => Response.json 200 s.toJson
  | .delete segment => respond (delete registry caller segment) fun _ => Response.bare 204

/-- The raw token of a request: what follows the word Bearer and a space, or nothing after the word
alone. -/
def bearer? (r : Request) : Option String :=
  (r.headerText? "authorization").bind fun text =>
    let cs := text.toList
    let scheme := "Bearer".toList
    if cs = scheme then some ""
    else if (scheme ++ [' ']).isPrefixOf cs then
      some (String.ofList (cs.drop (scheme.length + 1)))
    else none

/-- The caller that the token of a request stands for. -/
def identify (secret : String) (r : Request) : Action Caller :=
  match bearer? r with
  | none =>
    throw (Failure.unauthorized "Authorization header is missing or not a Bearer token")
  | some raw => authenticate secret raw

/-- Performs a change for the holder of the token in a request, and refuses it without one. -/
def authorized (registry : Registry) (secret : String) (r : Request) (query : List UInt8)
    (operation : Operation) : Program Response := do
  match ← (identify secret r).run with
  | .error f => return Response.ofFailure f
  | .ok caller => perform registry r query (some caller) operation

end StatusRegistry.Http
