import StatusRegistry.Failure

/-!
# Errors of the store

Why a statement failed, and what becomes of it. A violated unique constraint is a conflict that the
client may know about; every other error is internal, and its text goes no further.
-/

namespace StatusRegistry

/-- Why a statement gave no result. A store may fail in more ways than are told apart here; of those
only the messages are known, outermost first. -/
inductive StoreError where
  | rejected (state message : String) (violated : Option String)
  | disconnected
  | closed
  | noRow
  | other (messages : List String)
  deriving DecidableEq, Repr

namespace StoreError

/-- The state of a statement that violates a unique constraint. -/
def uniqueViolation : String := "23505"

/-- What a client is told about an error. -/
def toFailure : StoreError → Failure
  | .rejected state _ violated =>
    if state = uniqueViolation then
      ⟨.conflict, "Unique constraint violation",
        .obj [("constraint", match violated with | some name => .str name | none => .null)]⟩
    else ⟨.internal, "Database error", .obj []⟩
  | .disconnected => ⟨.internal, "Database error", .obj []⟩
  | .closed => ⟨.internal, "Database error", .obj []⟩
  | .noRow => ⟨.notFound, "Resource not found", .obj []⟩
  | .other _ => ⟨.internal, "Database error", .obj []⟩

/-- The messages of an error for an operator, outermost first. -/
def chain : StoreError → List String
  | .rejected _ message _ => ["error returned from database: " ++ message, message]
  | .disconnected =>
    ["error communicating with database: expected to read 5 bytes, got 0 bytes at EOF",
      "expected to read 5 bytes, got 0 bytes at EOF"]
  | .closed => ["attempted to acquire a connection on a closed pool"]
  | .noRow => ["no rows returned by a query that expected to return at least one row"]
  | .other messages => messages

end StoreError

end StatusRegistry
