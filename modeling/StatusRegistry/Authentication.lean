import StatusRegistry.Store.TokenRows

/-!
# Authentication

A raw token stands for the user it was issued to as long as it is active. The store is asked for
its digest only. That a token was used is recorded if possible; failing to do so changes nothing
for its holder.
-/

namespace StatusRegistry

/-- The caller that a raw token stands for. -/
def authenticate (secret raw : String) : Action Caller := do
  let digest := Token.digestOf secret raw
  match ← TokenRows.findUser digest with
  | none => throw (Failure.unauthorized "Invalid or revoked token")
  | some user =>
    let _ ← (TokenRows.touch digest).attempt
    return ⟨user⟩

end StatusRegistry
