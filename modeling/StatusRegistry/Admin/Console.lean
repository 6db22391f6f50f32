import StatusRegistry.Admin.Problem
import StatusRegistry.Program

/-!
# Sessions at a console

A session writes lines and makes calls, and may end in a problem. What it has written up to then
stays written. What it asks for is up to the terminal: prompts and answers are shown there and are
not among the lines written.
-/

namespace StatusRegistry.Admin

/-- What a session gets from its terminal. -/
structure Terminal where
  /-- The line entered at a prompt, or why there is none. -/
  enter : String → Except String String
  /-- The answer to a question with its usual answer, or why there is none. -/
  answer : String → Bool → Except String Bool
  /-- What is said of a text that was to be an identifier and is none. -/
  complaint : String → String

namespace Terminal

/-- Nobody to ask. -/
def absent : Terminal where
  enter _ := .error "not a terminal"
  answer _ _ := .error "not a terminal"
  complaint text := text

/-- The line entered at a prompt. -/
def line (t : Terminal) (prompt : String) : Except Problem String :=
  (t.enter prompt).mapError .prompt

/-- The identifier entered at a prompt; blank ends do not matter. -/
def user (t : Terminal) (prompt : String) : Except Problem Uuid := do
  let entered ← t.line prompt
  match Uuid.parse? (trimmed entered).toList with
  | some user => .ok user
  | none => .error (.malformedUser (t.complaint (trimmed entered)))

/-- Whether a question is answered with yes. -/
def consents (t : Terminal) (question : String) (usual : Bool) : Except Problem Bool :=
  (t.answer question usual).mapError .prompt

end Terminal

/-- A session: a program that also writes. -/
abbrev Console (α : Type) : Type := ExceptT Problem (StateT String Program) α

namespace Console

/-- A session that only runs a program. -/
def ofProgram {α : Type} (p : Program α) : Console α := ExceptT.lift (StateT.lift p)

/-- A session that only has a result. -/
def orFail {α : Type} (result : Except Problem α) : Console α := ExceptT.mk (pure result)

/-- Writes a line. -/
def say (line : String) : Console Unit :=
  ExceptT.lift (modifyGet fun written => ((), written ++ line ++ "\n"))

/-- Performs a task that ends the session if it fails. -/
def perform {α : Type} (task : String) (action : Action α) : Console α := do
  let outcome ← ofProgram (ExceptT.run action)
  orFail (match outcome with
    | .ok a => .ok a
    | .error failure => .error (.failed task failure))

/-- The outcome of a statement. -/
def tryQuery (q : Statement) : Console (Except StoreError q.Result) :=
  ofProgram (Program.ofCall (.query q))

/-- The result of a statement, whose error ends the session. -/
def query (q : Statement) : Console q.Result := do
  let outcome ← tryQuery q
  orFail (match outcome with
    | .ok result => .ok result
    | .error e => .error (.store e))

/-- The outcome of a session together with what it wrote. -/
def written {α : Type} (session : Console α) : Program (Except Problem α × String) :=
  StateT.run (ExceptT.run session) ""

end Console

end StatusRegistry.Admin
