import StatusRegistry.Http.Message
import StatusRegistry.Http.Target

/-!
# Routes

Every path names at most one resource, and every resource answers some methods. A resource that
answers a read answers the same read without content. Reads and changes of the same resource are
told apart here, because they are limited and authorized differently.
-/

namespace StatusRegistry.Http

/-- What a path can name. An item keeps its segment as it was written. -/
inductive Resource where
  | health
  | collection
  | search
  | item (segment : List UInt8)
  deriving DecidableEq, Repr

/-- What a request wants of a resource. -/
inductive Operation where
  | health
  | list
  | search
  | create
  | get (segment : List UInt8)
  | update (segment : List UInt8)
  | delete (segment : List UInt8)
  deriving DecidableEq, Repr

/-- A segment spelled in ASCII. -/
def segment (name : String) : List UInt8 := Utf8.octets name

/-- The resource below the root of statuses. -/
def Resource.ofSegments : List (List UInt8) → Option Resource
  | [root] => if root = segment "status" then some .collection else none
  | [root, last] =>
    if root ≠ segment "status" || last.isEmpty then none
    else if last = segment "search" then some .search
    else some (.item last)
  | _ => none

/-- The resource that a path of the service names. -/
def Resource.ofPath (segments : List (List UInt8)) : Option Resource :=
  match segments with
  | first :: rest =>
    if first = segment "health" && rest.isEmpty then some .health
    else
      match rest with
      | second :: below =>
        if first = segment "api" && second = segment "v1" then Resource.ofSegments below else none
      | [] => none
  | [] => none

/-- The operation that a method asks of a resource, if the resource answers it. -/
def Resource.operation? : Resource → Method → Option Operation
  | .health, .get => some .health
  | .health, .head => some .health
  | .collection, .get => some .list
  | .collection, .head => some .list
  | .collection, .post => some .create
  | .search, .get => some .search
  | .search, .head => some .search
  | .item s, .get => some (.get s)
  | .item s, .head => some (.get s)
  | .item s, .put => some (.update s)
  | .item s, .delete => some (.delete s)
  | _, _ => none

/-- The methods that a resource answers. -/
def Resource.allowed : Resource → String
  | .health => "GET,HEAD"
  | .collection => "POST,GET,HEAD"
  | .search => "GET,HEAD"
  | .item _ => "PUT,DELETE,GET,HEAD"

/-- Whether an operation changes statuses. -/
def Operation.isChange : Operation → Bool
  | .create => true
  | .update _ => true
  | .delete _ => true
  | _ => false

/-- The response to a method that a resource does not answer. -/
def Resource.notAllowed (r : Resource) : Response :=
  ⟨405, [("allow", r.allowed)], .empty⟩

end StatusRegistry.Http
