/-!
# Command lines

The commands of a program form a tree. A group says only which command or group comes next; a
command has options and operands. This module says what a command line may hold, and
`CommandLine.Reader` what a given one asks for.

Every group has a member for its manual, and every command and group has an option for it.
-/

namespace StatusRegistry.CommandLine

/-- An option of a command, given at most once. One with a placeholder takes a value, which has to
pass the check. -/
structure Switch where
  short : Char
  long : String
  placeholder : Option String
  about : String
  accepts : String → Bool

/-- An option without a value. -/
def Switch.flag (short : Char) (long about : String) : Switch :=
  ⟨short, long, none, about, fun _ => true⟩

/-- An option whose value is any text. -/
def Switch.text (short : Char) (long placeholder about : String) : Switch :=
  ⟨short, long, some placeholder, about, fun _ => true⟩

/-- A value that a command needs, told apart by its position. -/
structure Operand where
  placeholder : String
  about : String

/-- A command. -/
structure Command where
  about : String
  switches : List Switch
  operands : List Operand

/-- A place in the tree of commands. -/
inductive Entry where
  | group (about : String) (members : List (String × Entry))
  | command (c : Command)

/-- A program. -/
structure Tool where
  name : String
  version : String
  about : String
  members : List (String × Entry)

/-- The tree of a program. -/
def Tool.entry (t : Tool) : Entry := .group t.about t.members

/-- The member of every group that shows manuals. -/
def helpName : String := "help"

end StatusRegistry.CommandLine
