import StatusRegistry.Admin.Command
import StatusRegistry.Admin.Console
import StatusRegistry.Admin.Report
import StatusRegistry.Store.TokenRows

/-!
# Running the administration tool

From arguments, an environment and a terminal to a report: what is written, and the exit code. The
settings of the store are read before any command. A token is shown before it is stored, so it is
never stored without having been shown. Whoever does not consent cancels the command, which is no
problem.
-/

namespace StatusRegistry

/-- Why settings of the store give no connection to one that listens in a directory. The connection
string is read before any time passes. -/
def StoreSettings.connectionProblem? (s : StoreSettings) (env : Environment)
    (listening : String) : Option ConnectionProblem :=
  match ConnectionOptions.read env listening s.url with
  | .error problem => some problem
  | .ok options =>
    if s.maxConnections = 0 ∨ s.connectTimeout = 0 then some .tookTooLong
    else options.problem? listening

namespace Admin

open Console

/-- Begins a session under a title. -/
def heading (title : String) : Console Unit := say (title ++ "\n")

/-- The name of the token to be issued. -/
def Creation.nameAt (creation : Creation) (t : Terminal) : Except Problem String :=
  match creation.name with
  | some name => .ok name
  | none => t.line "Token name"

/-- The user of the token to be issued. -/
def Creation.userAt (creation : Creation) (t : Terminal) : Except Problem Uuid :=
  match creation.user with
  | some user => .ok user
  | none => t.user "User id (UUID)"

/-- Whether the token is really to be issued. -/
def Creation.consentAt (creation : Creation) (t : Terminal) : Except Problem Bool :=
  if creation.isConfirmed then .ok true else t.consents "Create this token?" true

/-- Issues a token. The fresh one is used if no raw token is given. -/
def createToken (env : Environment) (t : Terminal) (fresh : String) (creation : Creation) :
    Console Unit := do
  let auth ← orFail ((AuthSettings.load env).mapError .settings)
  orFail (auth.validate.mapError .settings)
  heading "Create API token"
  let name ← orFail (creation.nameAt t)
  let user ← orFail (creation.userAt t)
  orFail (if user.isNil then .error .nilUser else .ok ())
  let raw := creation.raw.getD fresh
  say ("  Name:  " ++ name)
  say ("  User:  " ++ user.text)
  say ("  Token: " ++ raw)
  say "\nThe token is shown only once; store it now.\n"
  if ← orFail (creation.consentAt t) then
    let token ← perform "create token" (TokenRows.create name (Token.digestOf auth.secret raw) user)
    say ("Token created (id " ++ toString token.id ++ ")\n")
    say (sampleRequest raw)
  else
    say "Cancelled"

/-- Shows all tokens. -/
def listTokens : Console Unit := do
  heading "API tokens"
  let tokens ← perform "list tokens" TokenRows.list
  if tokens.isEmpty then
    say "  No tokens yet; create one with `admin token create`"
  else
    say tableHeading
    say tableRule
    tokens.forM fun t => say (tokenLine t)
    say (totalsLine tokens)

/-- Looks up a token by its number, or by its name if the text is no number. -/
def findToken (nameOrId : String) : Action (Option Token) :=
  match readInt64 nameOrId with
  | .ok id => TokenRows.findById id
  | .error _ => TokenRows.findByName nameOrId

/-- Revokes a token after asking for consent. -/
def revokeToken (t : Terminal) (nameOrId : String) : Console Unit := do
  heading "Revoke API token"
  match ← perform "look up token" (findToken nameOrId) with
  | none => orFail (.error (.unknownToken nameOrId))
  | some token =>
    if token.isRevoked then say "Token is already revoked"
    else
      say (tokenLine token ++ "\n")
      if ← orFail (t.consents "Revoke this token?" false) then
        perform "revoke token" (TokenRows.revoke token.id)
        say "Token revoked\n"
      else
        say "Cancelled"

/-- Counts statuses and active tokens. -/
def statistics : Console Unit := do
  heading "Statistics"
  let (live, deleted) : Int64 × Int64 ← query .countStatuses
  let tokens : Int64 ← query .countTokens
  say ("  Statuses:         " ++ toString live)
  say ("  Deleted statuses: " ++ toString deleted)
  say ("  Active tokens:    " ++ toString tokens ++ "\n")

/-- Looks whether the store answers. -/
def checkStore (settings : StoreSettings) : Console Unit := do
  say ("Checking " ++ masked settings.url ++ " ...")
  query .health
  say "Database connection OK"

/-- Shows the version of the store and the number of its migrations. A store that cannot tell that
number has none applied. -/
def describeStore : Console Unit := do
  heading "Database"
  let version : String ← query .version
  let migrations : Except StoreError Int64 ← tryQuery .countMigrations
  say ("  PostgreSQL: " ++ version)
  say ("  Migrations: " ++ match migrations with
    | .ok count => toString count
    | .error _ => "not applied")
  say ""

/-- The session of a command. -/
def Command.session (env : Environment) (t : Terminal) (settings : StoreSettings)
    (fresh : String) : Command → Console Unit
  | .createToken creation => Admin.createToken env t fresh creation
  | .listTokens => Admin.listTokens
  | .revokeToken nameOrId => Admin.revokeToken t nameOrId
  | .statistics => Admin.statistics
  | .checkStore => Admin.checkStore settings
  | .describeStore => Admin.describeStore

/-- What the tool leaves behind: its exit code and what it wrote. -/
structure Report where
  code : Nat
  output : String
  errors : String
  deriving DecidableEq, Repr

/-- The report on a command line that names no command. -/
def misused : Report := ⟨2, "", "error: unrecognized command line\n"⟩

/-- The report on a session. -/
def Report.ofOutcome : Except Problem Unit × String → Report
  | (.ok (), output) => ⟨0, output, ""⟩
  | (.error problem, output) => ⟨1, output, problem.text⟩

/-- Performs a command in an environment and at a terminal, where the store listens in a
directory. -/
def execute (env : Environment) (t : Terminal) (listening fresh : String) (command : Command) :
    Program Report :=
  let session : Console Unit := do
    let settings ← orFail ((StoreSettings.load env).mapError .settings)
    orFail (match settings.connectionProblem? env listening with
      | some problem => .error (.connection problem)
      | none => .ok ())
    command.session env t settings fresh
  session.written.bind fun outcome => .done (.ofOutcome outcome)

/-- Runs the tool where the store listens in a directory. The fresh token is used if one has to be
generated. -/
def run (env : Environment) (t : Terminal) (listening fresh : String)
    (arguments : List String) : Program Report :=
  match tool.read arguments with
  | .misuse => .done misused
  | .version => .done ⟨0, versionLine, ""⟩
  | .manual m => .done ⟨0, m.text, ""⟩
  | .run path given =>
    match Command.ofGiven? path given with
    | some command => execute env t listening fresh command
    | none => .done misused

end Admin

end StatusRegistry
