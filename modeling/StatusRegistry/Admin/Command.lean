import StatusRegistry.CommandLine.Reader
import StatusRegistry.Uuid

/-!
# Commands of the administration tool

An administrator issues, lists and revokes tokens, counts what the store holds, and looks whether
the store answers. `Admin.tool` says how these commands are written, `Command.ofGiven?` which
command a well-formed command line names.
-/

namespace StatusRegistry.Admin

/-- What is told about a token to be issued. A missing name or user has to be asked for. -/
structure Creation where
  name : Option String
  user : Option Uuid
  raw : Option String
  isConfirmed : Bool
  deriving DecidableEq

/-- A command. -/
inductive Command where
  | createToken (creation : Creation)
  | listTokens
  | revokeToken (nameOrId : String)
  | statistics
  | checkStore
  | describeStore
  deriving DecidableEq

open CommandLine in
/-- The tool and the tree of its commands. -/
def tool : Tool where
  name := "admin"
  version := "0.1.0"
  about := "Manage status-service tokens and database"
  members := [
    ("token", .group "Issue, list and revoke API tokens" [
      ("create", .command {
        about := "Issue a token acting as a user"
        switches := [
          .text 'n' "name" "NAME" "Display name, unique across tokens",
          ⟨'u', "user", some "USER",
            "User id recorded as creator/updater of statuses written with this token",
            fun value => (Uuid.parse? value.toList).isSome⟩,
          .text 't' "token" "TOKEN" "Use this raw value instead of generating one",
          .flag 'y' "yes" "Do not ask for confirmation"]
        operands := [] }),
      ("list", .command ⟨"Show every token, revoked ones included", [], []⟩),
      ("revoke", .command
        ⟨"Revoke a token by name or numeric id", [], [⟨"NAME_OR_ID", ""⟩]⟩)]),
    ("stats", .command ⟨"Count statuses and active tokens", [], []⟩),
    ("db", .group "Database connectivity and migration state" [
      ("check", .command ⟨"Run a trivial query", [], []⟩),
      ("info", .command ⟨"Server version and applied migrations", [], []⟩)])]

/-- The line that shows the version of the tool. -/
def versionLine : String := tool.name ++ " " ++ tool.version ++ "\n"

/-- The creation that options describe. -/
def Creation.ofGiven (given : CommandLine.Given) : Creation where
  name := given.values.lookup "name"
  user := (given.values.lookup "user").bind fun value => Uuid.parse? value.toList
  raw := given.values.lookup "token"
  isConfirmed := given.flags.contains "yes"

/-- The command at a path with what it was given. -/
def Command.ofGiven? (path : List String) (given : CommandLine.Given) : Option Command :=
  match path.drop 1, given.operands with
  | ["token", "create"], [] => some (.createToken (.ofGiven given))
  | ["token", "list"], [] => some .listTokens
  | ["token", "revoke"], [nameOrId] => some (.revokeToken nameOrId)
  | ["stats"], [] => some .statistics
  | ["db", "check"], [] => some .checkStore
  | ["db", "info"], [] => some .describeStore
  | _, _ => none

end StatusRegistry.Admin
