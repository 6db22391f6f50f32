import StatusRegistry.Digest
import StatusRegistry.Instant
import StatusRegistry.Uuid

/-!
# Tokens

A token lets its holder act as a user until it is revoked. The registry keeps only a keyed digest
of it, so what is stored does not let anyone act.
-/

namespace StatusRegistry

/-- A token as the store holds it. -/
structure Token where
  id : Int64
  name : String
  digest : String
  user : Uuid
  createdAt : Instant
  lastUsedAt : Option Instant
  revokedAt : Option Instant
  deriving DecidableEq

namespace Token

/-- Whether a token has been revoked. -/
def isRevoked (t : Token) : Bool := t.revokedAt.isSome

/-- The digest of a raw token under the signing secret. -/
def digestOf (secret raw : String) : String :=
  Digest.hex (Digest.hmac (Utf8.octets secret) (Utf8.octets raw))

/-- The characters of a generated raw token. -/
def alphabet : List Char :=
  "ABCDEFGHIJKLMNOPQRSTUVWXYZabcdefghijklmnopqrstuvwxyz0123456789".toList

/-- The number of characters of a generated raw token. -/
def rawLength : Nat := 48

/-- The raw token whose characters stand at the drawn places of the alphabet. -/
def ofDraws (draws : List Nat) : String :=
  String.ofList (draws.filterMap fun place => alphabet[place]?)

end Token

end StatusRegistry
