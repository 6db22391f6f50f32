import StatusRegistry.Token

/-!
# What the administration tool writes

The lines that show tokens and counts. Columns are padded with spaces to fixed widths; longer
entries push the rest of their line to the right.
-/

namespace StatusRegistry.Admin

/-- A text filled up with spaces. -/
def column (width : Nat) (s : String) : String :=
  s ++ String.ofList (List.replicate (width - s.length) ' ')

/-- A line of the table of tokens. -/
def tableLine (id name user created lastUsed state : String) : String :=
  "  " ++ " ".intercalate
    [column 6 id, column 24 name, column 36 user, column 17 created, column 17 lastUsed, state]

/-- The heading of the table of tokens. -/
def tableHeading : String := tableLine "ID" "Name" "User" "Created" "Last used" "State"

/-- The rule below the heading. -/
def tableRule : String := "  " ++ String.ofList (List.replicate tableHeading.length '-')

/-- The line of a token. -/
def tokenLine (t : Token) : String :=
  tableLine (toString t.id) t.name t.user.text t.createdAt.minuteText
    ((t.lastUsedAt.map Instant.minuteText).getD "never")
    (if t.isRevoked then "REVOKED" else "ACTIVE")

/-- The line that counts tokens. -/
def totalsLine (tokens : List Token) : String :=
  "\n  " ++ toString tokens.length ++ " total, " ++
    toString (tokens.countP fun t => !t.isRevoked) ++ " active\n"

/-- A request that can be made with a raw token. -/
def sampleRequest (raw : String) : String :=
  "  curl -X POST http://localhost:3000/api/v1/status \\\n" ++
  "    -H \"Authorization: Bearer " ++ raw ++ "\" \\\n" ++
  "    -H \"Content-Type: application/json\" \\\n" ++
  "    -d '\x7b\"name\":\"estimate\",\"description\":\"Waiting for an estimate\"\x7d'\n"

end StatusRegistry.Admin
