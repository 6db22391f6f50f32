import StatusRegistry.Status.Json
import StatusRegistry.Store.StatusRows

/-!
# The registry of statuses

What callers may do with statuses. Reads by identifier go through the cache; listings and searches
always ask the store. A change goes to the store first and then removes the cached copy, whatever
happens to that removal. No outcome of a cache call but a hit has any influence on a result.
-/

namespace StatusRegistry

/-- What governs the registry: the lifetime of cached statuses in seconds, and whether only the
creator may change a status. -/
structure Registry where
  lifetime : Nat
  enforceOwnership : Bool

/-- The key of a status in the cache. -/
def cacheKey (id : Uuid) : String := "api-status:" ++ id.text

namespace Registry

/-- Refuses a user who may not change a status. -/
def checkOwner (r : Registry) (s : Status) (user : Uuid) : Except Failure Unit :=
  if r.enforceOwnership && !s.isOwnedBy user then .error (Failure.notOwner s.id) else .ok ()

/-- Removes the cached copy of a status. -/
def invalidate (id : Uuid) : Program Unit :=
  .call (.cacheDelete (cacheKey id)) fun
    | .ok () => .done ()
    | .error _ => Program.count .errors

/-- The cached copy of a status, with the counter that the outcome belongs to. A text that is no
status counts as an error. -/
def readCached (id : Uuid) : Program (Option Status) :=
  .call (.cacheGet (cacheKey id)) fun
    | .ok text =>
      match Status.decode (Utf8.octets text) with
      | .ok s => do
        Program.count .hits
        pure (some s)
      | .error _ => do
        Program.count .errors
        pure none
    | .error e => do
      Program.count (if e.isMiss then .misses else .errors)
      pure none

/-- Keeps a copy of a status in the cache. -/
def writeCached (r : Registry) (id : Uuid) (s : Status) : Program Unit :=
  .call (.cacheSet (cacheKey id) s.toJson.text r.lifetime) fun
    | .ok () => .done ()
    | .error _ => Program.count .errors

/-- Creates a status that belongs to the caller. -/
def create (caller : Caller) (draft : Draft) : Action Status := do
  let owner ← Action.ofExcept caller.identified
  Action.ofExcept draft.validate
  StatusRows.create owner draft

/-- Replaces the content of a status. -/
def update (r : Registry) (caller : Caller) (id : Uuid) (revision : Revision) : Action Status := do
  let updater ← Action.ofExcept caller.identified
  Action.ofExcept revision.validate
  let existing ← StatusRows.find id
  Action.ofExcept (r.checkOwner existing updater)
  let s ← StatusRows.update id updater revision
  invalidate id
  return s

/-- The status with an identifier. -/
def get (r : Registry) (id : Uuid) : Action Status := do
  match ← readCached id with
  | some s => return s
  | none =>
    let s ← StatusRows.find id
    r.writeCached id s
    return s

/-- Deletes a status. -/
def delete (r : Registry) (caller : Caller) (id : Uuid) : Action Unit := do
  let user ← Action.ofExcept caller.identified
  let existing ← StatusRows.find id
  Action.ofExcept (r.checkOwner existing user)
  StatusRows.delete id
  invalidate id

/-- One page of the statuses that pass a filter. -/
def list (request : PageRequest) (filter : Filter) : Action Listing :=
  StatusRows.list request filter

/-- One page of the statuses whose name or description contains a text. -/
def search (text : String) (request : PageRequest) : Action Listing :=
  StatusRows.search text request

end Registry

end StatusRegistry
