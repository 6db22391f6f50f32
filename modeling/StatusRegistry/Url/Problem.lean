/-!
# Problems with URLs

Why a text is no URL. Only the scheme, the host and the port can be wrong; any path and any query
are accepted.
-/

namespace StatusRegistry

/-- Why a text is no URL. -/
inductive UrlProblem where
  | relative
  | emptyHost
  | invalidPort
  | invalidV4
  | invalidV6
  | invalidCharacter
  | invalidName
  deriving DecidableEq, Repr

/-- The wording of a problem with a URL. -/
def UrlProblem.message : UrlProblem → String
  | .relative => "relative URL without a base"
  | .emptyHost => "empty host"
  | .invalidPort => "invalid port number"
  | .invalidV4 => "invalid IPv4 address"
  | .invalidV6 => "invalid IPv6 address"
  | .invalidCharacter => "invalid domain character"
  | .invalidName => "invalid international domain name"

end StatusRegistry
