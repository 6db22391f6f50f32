import StatusRegistry.Text.Integer
import StatusRegistry.Text.Quoted
import StatusRegistry.Text.Utf8

/-!
# The environment

Settings are read from named variables. A variable holds octets; one that is not valid UTF-8 counts
as absent wherever there is something to fall back to, and is named in the message where there is
nothing.
-/

namespace StatusRegistry

/-- The variables that are set, with the octets they hold. -/
structure Environment where
  entries : List (String × List UInt8)

/-- Why a variable has no text. -/
inductive Absence where
  | unset
  | undecodable (octets : List UInt8)
  deriving DecidableEq

/-- The wording of an absence. -/
def Absence.message : Absence → String
  | .unset => "environment variable not found"
  | .undecodable octets =>
    "environment variable was not valid unicode: " ++ Quoted.quotedOctets octets

namespace Environment

/-- The text of a variable. -/
def read (env : Environment) (name : String) : Except Absence String :=
  match env.entries.lookup name with
  | none => .error .unset
  | some octets =>
    match Utf8.string? octets with
    | none => .error (.undecodable octets)
    | some text => .ok text

/-- The text of a variable, if it has one. -/
def get? (env : Environment) (name : String) : Option String :=
  (env.read name).toOption

/-- The text of a variable, or a default. -/
def getD (env : Environment) (name default : String) : String :=
  (env.get? name).getD default

/-- The number that a variable holds, or a default if it holds none within the limit. -/
def number (env : Environment) (name : String) (limit default : Nat) : Nat :=
  match env.get? name with
  | none => default
  | some text =>
    match readNat limit text.toList with
    | .ok n => n
    | .error _ => default

/-- Whether a variable holds a yes: the word true in any letter case, or a one. -/
def flag (env : Environment) (name : String) : Bool :=
  match env.get? name with
  | none => false
  | some text => text.toList.map Char.toLower = "true".toList || text = "1"

end Environment

end StatusRegistry
