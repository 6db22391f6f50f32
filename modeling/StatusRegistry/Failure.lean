import StatusRegistry.Json.Value
import StatusRegistry.Uuid

/-!
# Failures

Every operation that is refused ends in a failure: a kind, a message and details for the client.
The kind alone fixes the code and the response status. What a client may read of a store's own
error is decided here and nowhere else: only that there was one, and in which operation.
-/

namespace StatusRegistry

/-- The kinds of failure. -/
inductive FailureKind where
  | invalid
  | unauthorized
  | forbidden
  | notFound
  | conflict
  | internal
  deriving DecidableEq, Repr

/-- The code of a kind in responses. -/
def FailureKind.code : FailureKind → String
  | .invalid => "validation_error"
  | .unauthorized => "unauthorized"
  | .forbidden => "forbidden"
  | .notFound => "not_found"
  | .conflict => "conflict"
  | .internal => "internal_error"

/-- The response status of a kind. -/
def FailureKind.httpStatus : FailureKind → Nat
  | .invalid => 400
  | .unauthorized => 401
  | .forbidden => 403
  | .notFound => 404
  | .conflict => 409
  | .internal => 500

/-- A refusal with what the client is told about it. -/
structure Failure where
  kind : FailureKind
  message : String
  details : Json

namespace Failure

/-- The text of a failure in messages of the command line. -/
def display (f : Failure) : String := f.kind.code ++ ": " ++ f.message

/-- The object that describes a failure in a response. -/
def toJson (f : Failure) : Json :=
  .obj [("code", .str f.kind.code), ("message", .str f.message), ("details", f.details)]

/-- Names the operation in which a failure arose. Only failures of the store are named so; the
others already say what was wrong with the request. -/
def withOperation (f : Failure) (operation : String) : Failure :=
  if f.kind = .internal ∨ f.kind = .conflict then
    let members := match f.details with
      | .obj members => members
      | _ => []
    { f with details := .obj (Json.setMember "op" (.str operation) members) }
  else f

/-- The challenge that accompanies a failure, if a caller could repair it by identifying itself. -/
def challenge (f : Failure) : Option String :=
  if f.kind = .unauthorized then some "Bearer" else none

/-- A failure whose details give one reason. -/
def withReason (kind : FailureKind) (message reason : String) : Failure :=
  ⟨kind, message, .obj [("reason", .str reason)]⟩

/-- Fields that hold values out of bounds, each with its message. -/
def invalidFields (fields : List (String × String)) : Failure :=
  ⟨.invalid, "Validation failed",
    .obj [("fields", .obj (fields.map fun (name, message) => (name, .arr [.str message])))]⟩

/-- A request body that could not be read. -/
def invalidBody (reason : String) : Failure := withReason .invalid "Invalid request body" reason

/-- Query parameters that could not be read. -/
def invalidQuery (reason : String) : Failure :=
  withReason .invalid "Invalid query parameters" reason

/-- A path that names no identifier. -/
def invalidPath (reason : String) : Failure := withReason .invalid "Invalid path parameter" reason

/-- A caller without an identity. -/
def unauthorized (reason : String) : Failure := withReason .unauthorized "Unauthorized" reason

/-- A status that another caller created. -/
def notOwner (id : Uuid) : Failure :=
  ⟨.forbidden, "Only the creator may modify this status", .obj [("id", .str id.text)]⟩

/-- No live status has the identifier. -/
def statusNotFound (id : Uuid) : Failure :=
  ⟨.notFound, "Status not found", .obj [("id", .str id.text)]⟩

/-- No live status with the identifier was left to delete. -/
def statusGone (id : Uuid) : Failure :=
  ⟨.notFound, "Status not found or already deleted", .obj [("id", .str id.text)]⟩

/-- No active token with the number was left to revoke. -/
def tokenGone (id : Int) : Failure :=
  ⟨.notFound, "Token not found or already revoked", .obj [("id", .int id)]⟩

end Failure

end StatusRegistry
