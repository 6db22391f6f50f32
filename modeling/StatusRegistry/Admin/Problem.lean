import StatusRegistry.Settings
import StatusRegistry.Store.Connection
import StatusRegistry.Store.Error

/-!
# Problems of administration

Why a command was given up. A problem is shown as its messages, outermost first; the causes follow
indented, and are numbered if there are several.
-/

namespace StatusRegistry.Admin

/-- Why a command was given up. -/
inductive Problem where
  | settings (problem : SettingsProblem)
  | connection (problem : ConnectionProblem)
  | prompt (cause : String)
  | malformedUser (complaint : String)
  | nilUser
  | unknownToken (nameOrId : String)
  | failed (task : String) (failure : Failure)
  | store (e : StoreError)

/-- The messages of a problem, outermost first. -/
def Problem.chain : Problem → List String
  | .settings problem => problem.chain
  | .connection problem => "Failed to connect to database" :: problem.chain
  | .prompt cause => ["IO error: " ++ cause]
  | .malformedUser complaint => ["User id must be a UUID", complaint]
  | .nilUser => ["User id must not be the nil UUID"]
  | .unknownToken nameOrId => ["No token named or numbered '" ++ nameOrId ++ "'"]
  | .failed task failure => ["Failed to " ++ task, failure.display]
  | .store e => e.chain

/-- A text whose later lines are indented like its first, which follows the given start. -/
def indented (start margin text : String) : String :=
  start ++ String.join (text.toList.map fun c => if c = '\n' then "\n" ++ margin else c.toString)

/-- A cause among several, with its number in five columns. -/
def numbered (index : Nat) (cause : String) : String :=
  let number := toString index
  indented (String.ofList (List.replicate (5 - number.length) ' ') ++ number ++ ": ")
    "       " cause

/-- The causes of a problem below its outermost message. -/
def causesText (causes : List String) : String :=
  match causes with
  | [] => ""
  | [cause] => "\n\nCaused by:\n" ++ indented "    " "    " cause
  | causes => "\n\nCaused by:" ++
      String.join (causes.mapIdx fun index cause => "\n" ++ numbered index cause)

/-- How a problem is shown. -/
def Problem.text (p : Problem) : String :=
  match p.chain with
  | [] => "Error: \n"
  | message :: causes => "Error: " ++ message ++ causesText causes ++ "\n"

end StatusRegistry.Admin
