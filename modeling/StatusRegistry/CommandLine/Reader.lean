import StatusRegistry.CommandLine.Manual

/-!
# Reading command lines

A command line is read from left to right, and its first problem or its first call for a manual or
the version decides. An option is given by its long name or by its letter; letters of options
without values may be joined, and a value may follow its option directly, after an equals sign or
as the next argument, in which case it must not look like an option. Two hyphens end the options.
-/

namespace StatusRegistry.CommandLine

/-- What a command was given: the values of options by their long names, the options without
values, and the operands in order. -/
structure Given where
  values : List (String × String)
  flags : List String
  operands : List String

/-- What a command line asks for. -/
inductive Request where
  | run (path : List String) (given : Given)
  | manual (m : Manual)
  | version
  | misuse

namespace Given

/-- Nothing given yet. -/
def empty : Given := ⟨[], [], []⟩

/-- Adds an option without value. -/
def addFlag (g : Given) (s : Switch) : Option Given :=
  if g.flags.contains s.long then none else some { g with flags := s.long :: g.flags }

/-- Adds an option with its value. -/
def addValue (g : Given) (s : Switch) (value : String) : Option Given :=
  if (g.values.lookup s.long).isSome || !s.accepts value then none
  else some { g with values := (s.long, value) :: g.values }

/-- Adds operands, of which a command has a limited number. -/
def addOperands (g : Given) (c : Command) (operands : List String) : Option Given :=
  if g.operands.length + operands.length ≤ c.operands.length then
    some { g with operands := g.operands ++ operands }
  else none

end Given

/-- What one argument leads to. -/
inductive Step where
  | next (g : Given)
  | awaiting (g : Given) (s : Switch)
  | manual
  | misuse

/-- Goes on if an argument could be added. -/
def Step.ofOption : Option Given → Step
  | some g => .next g
  | none => .misuse

namespace Command

/-- Reads an option by its long name, perhaps with a value. -/
def readLong (c : Command) (g : Given) (name : String) (value : Option String) : Step :=
  if name = "help" then if value.isNone then .manual else .misuse
  else
    match c.switches.find? (·.long = name) with
    | none => .misuse
    | some s =>
      match s.placeholder, value with
      | none, none => .ofOption (g.addFlag s)
      | none, some _ => .misuse
      | some _, some value => .ofOption (g.addValue s value)
      | some _, none => .awaiting g s

/-- Reads joined letters of options. -/
def readLetters (c : Command) (g : Given) : List Char → Step
  | [] => .next g
  | letter :: rest =>
    if letter = 'h' then .manual
    else
      match c.switches.find? (·.short = letter) with
      | none => .misuse
      | some s =>
        match s.placeholder with
        | none =>
          match g.addFlag s with
          | some g => c.readLetters g rest
          | none => .misuse
        | some _ =>
          match rest with
          | [] => .awaiting g s
          | '=' :: value => .ofOption (g.addValue s (String.ofList value))
          | value => .ofOption (g.addValue s (String.ofList value))

/-- Reads one argument before the end of the options. -/
def readArgument (c : Command) (g : Given) (argument : String) : Step :=
  match argument.toList with
  | '-' :: '-' :: long =>
    let name := long.takeWhile (· ≠ '=')
    let value := if name.length = long.length then none
      else some (String.ofList (long.drop (name.length + 1)))
    c.readLong g (String.ofList name) value
  | '-' :: letter :: rest => c.readLetters g (letter :: rest)
  | _ => .ofOption (g.addOperands c [argument])

end Command

/-- Whether an argument is taken for an option. A single hyphen is not. -/
def looksLikeOption (argument : String) : Bool :=
  argument.toList.head? = some '-' && argument ≠ "-"

/-- The request of a command that was given all that it needs. -/
def Command.request (c : Command) (path : List String) (g : Given) : Request :=
  if g.operands.length = c.operands.length then .run path g else .misuse

/-- Reads the arguments of a command. -/
def Command.read (c : Command) (path : List String) (g : Given) : List String → Request
  | [] => c.request path g
  | argument :: rest =>
    if argument = "--" then
      match g.addOperands c rest with
      | some g => c.request path g
      | none => .misuse
    else
      match c.readArgument g argument with
      | .next g => c.read path g rest
      | .manual => .manual ((Entry.command c).manual path)
      | .misuse => .misuse
      | .awaiting g s =>
        match rest with
        | [] => .misuse
        | value :: rest =>
          if looksLikeOption value then .misuse
          else
            match g.addValue s value with
            | some g => c.read path g rest
            | none => .misuse

/-- Finds the manual at the place that words lead to. -/
def Entry.findManual (path : List String) : Entry → List String → Request
  | e, [] => .manual (e.manual path)
  | .command _, _ :: _ => .misuse
  | .group _ members, name :: rest =>
    match members.lookup name with
    | some e => e.findManual (path ++ [name]) rest
    | none =>
      if name = helpName ∧ rest.isEmpty then .manual (helpManual path) else .misuse

/-- Whether an argument is an option with a letter and a long name, or begins with its letter. -/
def isOption (letter : Char) (long argument : String) : Bool :=
  match argument.toList with
  | '-' :: first :: _ => first = letter || argument = "--" ++ long
  | _ => false

/-- Reads the arguments at a place in the tree. -/
def Entry.read (path : List String) : Entry → List String → Request
  | .command c, arguments => c.read path .empty arguments
  | .group _ _, [] => .misuse
  | .group about members, argument :: rest =>
    match members.lookup argument with
    | some e => e.read (path ++ [argument]) rest
    | none =>
      if argument = helpName then (Entry.group about members).findManual path rest
      else if isOption 'h' "help" argument then
        .manual ((Entry.group about members).manual path)
      else if path.length = 1 && isOption 'V' "version" argument then .version
      else .misuse

/-- What a command line asks of a program. -/
def Tool.read (t : Tool) (arguments : List String) : Request :=
  t.entry.read [t.name] arguments

end StatusRegistry.CommandLine
