/-!
# Errors of a cache

A cache has no value under a key, cannot be reached, or fails in an operation. A miss is no
failure, and none of them ever reaches a caller of the registry.
-/

namespace StatusRegistry

/-- Why a cache gave no answer. -/
inductive CacheError where
  | miss (key : String)
  | connection (message : String)
  | backend (operation message : String)
  deriving DecidableEq, Repr

namespace CacheError

/-- The text of an error. -/
def display : CacheError → String
  | .miss key => "cache miss: " ++ key
  | .connection message => "cache connection error: " ++ message
  | .backend operation message => operation ++ ": " ++ message

/-- Whether an error only says that there is no value. -/
def isMiss : CacheError → Bool
  | .miss _ => true
  | _ => false

end CacheError

end StatusRegistry
