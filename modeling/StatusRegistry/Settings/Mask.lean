/-!
# Masked connection strings

A connection string may hold a password: what stands between the last colon before the first at
sign after the scheme, and that at sign. Before a connection string is shown, the password is
replaced.
-/

namespace StatusRegistry

/-- What stands after the first occurrence of a text, with what stands before it. -/
def splitAfter? (pattern : List Char) : List Char → List Char → Option (List Char × List Char)
  | seen, [] => if pattern.isEmpty then some (seen.reverse, []) else none
  | seen, c :: rest =>
    if pattern.isPrefixOf (c :: rest) then
      some (seen.reverse ++ pattern, (c :: rest).drop pattern.length)
    else splitAfter? pattern (c :: seen) rest

/-- The part of a text before its last colon. -/
def beforeLastColon? (cs : List Char) : Option (List Char) :=
  match cs.reverse.dropWhile (· ≠ ':') with
  | [] => none
  | _ :: before => some before.reverse

/-- A connection string without its password. -/
def masked (url : String) : String :=
  match splitAfter? "://".toList [] url.toList with
  | none => url
  | some (scheme, rest) =>
    let credentials := rest.takeWhile (· ≠ '@')
    if credentials.length = rest.length then url
    else
      match beforeLastColon? credentials with
      | none => url
      | some user =>
        String.ofList (scheme ++ user ++ ":***".toList ++ rest.drop credentials.length)

end StatusRegistry
