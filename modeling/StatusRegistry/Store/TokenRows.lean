import StatusRegistry.Program

/-!
# Token rows

The operations on the table of tokens. Tokens are found by their digest, number or name, and only
active ones let anyone act.
-/

namespace StatusRegistry.TokenRows

/-- The user of the active token with a digest. -/
def findUser (digest : String) : Action (Option Uuid) := Action.query (.findTokenUser digest)

/-- Records that the active token with a digest was used. -/
def touch (digest : String) : Action Unit := do
  let _ ← Action.query (.touchToken digest)

/-- Inserts a token. -/
def create (name digest : String) (user : Uuid) : Action Token :=
  Action.query (.createToken name digest user)

/-- All tokens, latest first. -/
def list : Action (List Token) := Action.query .listTokens

/-- The token with a number. -/
def findById (id : Int64) : Action (Option Token) := Action.query (.findTokenById id)

/-- The token with a name. -/
def findByName (name : String) : Action (Option Token) := Action.query (.findTokenByName name)

/-- Revokes the active token with a number. -/
def revoke (id : Int64) : Action Unit := do
  let (changed : Nat) ← Action.query (.revokeToken id)
  Action.ofExcept (if changed = 0 then .error (Failure.tokenGone id.toInt) else .ok ())

end StatusRegistry.TokenRows
