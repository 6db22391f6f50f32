import StatusRegistry.Admin.Run
import StatusRegistry.World

/-!
# The administration tool

Reads the variables it knows, draws a fresh token and runs the command line against a store of its
own, asking nobody, then writes the report.
-/

namespace StatusRegistry

/-- The variables that administration reads. -/
def adminVariables : List String :=
  ["DATABASE_URL", "DB_HOST", "DB_PORT", "DB_USER", "DB_PASSWORD", "DB_NAME",
    "DB_MAX_CONNECTIONS", "DB_CONNECT_TIMEOUT", "DB_IDLE_TIMEOUT", "DB_MAX_LIFETIME",
    "TOKEN_SIGNING_SECRET", "ENFORCE_OWNERSHIP", "PGHOST", "PGHOSTADDR", "PGPORT", "PGSSLMODE"]

/-- The directory in which the store of this process listens. -/
def storeDirectory : String := "/tmp"

/-- The environment of this process. -/
def readEnvironment : IO Environment := do
  let entries ← adminVariables.filterMapM fun name => do
    let value ← IO.getEnv name
    return value.map fun text => (name, Utf8.octets text)
  return ⟨entries⟩

/-- A raw token of random characters. -/
def drawToken : IO String := do
  let draws ← (List.range Token.rawLength).mapM fun _ =>
    IO.rand 0 (Token.alphabet.length - 1)
  return Token.ofDraws draws

end StatusRegistry

open StatusRegistry in
/-- Runs the tool with the arguments of this process. -/
def main (arguments : List String) : IO UInt32 := do
  let env ← readEnvironment
  let fresh ← drawToken
  let world := World.make Store.empty .none
  match (world.run (Admin.run env .absent storeDirectory fresh arguments)).value with
  | none => return 1
  | some report =>
    IO.print report.output
    IO.eprint report.errors
    return report.code.toUInt32
