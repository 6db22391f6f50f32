import StatusRegistry.CommandLine

/-!
# Manuals

The manual of a command or group: what it is for, how it is used, and its members, operands and
options in sections. The terms of a section are padded to the width of its longest one.
-/

namespace StatusRegistry.CommandLine

/-- A manual. A section has a title and explains terms. -/
structure Manual where
  about : String
  usage : String
  sections : List (String × List (String × String))

namespace Manual

/-- A text filled up with spaces. -/
def padded (width : Nat) (s : String) : String :=
  s ++ String.ofList (List.replicate (width - s.length) ' ')

/-- A section. One without terms does not appear. -/
def sectionText (title : String) (terms : List (String × String)) : String :=
  if terms.isEmpty then ""
  else
    let width := terms.foldl (fun width (term, _) => max width term.length) 0
    "\n" ++ title ++ ":\n" ++ String.join (terms.map fun (term, about) =>
      "  " ++ padded width term ++ "  " ++ about ++ "\n")

/-- The text of a manual. -/
def text (m : Manual) : String :=
  m.about ++ "\n\nUsage: " ++ m.usage ++ "\n" ++
    String.join (m.sections.map fun (title, terms) => sectionText title terms)

end Manual

/-- What the member that shows manuals is for. -/
def helpAbout : String := "Print this message or the help of the given subcommand(s)"

/-- The option that shows a manual. -/
def helpTerm : String × String := ("-h, --help", "Print help")

/-- The option of a program that shows its version. -/
def versionTerm : String × String := ("-V, --version", "Print version")

/-- An option as its manual shows it. -/
def Switch.term (s : Switch) : String × String :=
  let value := match s.placeholder with
    | some placeholder => " <" ++ placeholder ++ ">"
    | none => ""
  ("-" ++ s.short.toString ++ ", --" ++ s.long ++ value, s.about)

/-- An operand as its manual shows it. -/
def Operand.term (o : Operand) : String × String := ("<" ++ o.placeholder ++ ">", o.about)

/-- What a member of a group is for. -/
def Entry.about : Entry → String
  | .group about _ => about
  | .command c => c.about

/-- The manual at a place, which is named by the words that lead to it. -/
def Entry.manual (path : List String) : Entry → Manual
  | .group about members =>
    { about := about
      usage := " ".intercalate (path ++ ["<COMMAND>"])
      sections := [
        ("Commands", members.map (fun (name, e) => (name, e.about)) ++ [(helpName, helpAbout)]),
        ("Options", [helpTerm] ++ if path.length = 1 then [versionTerm] else [])] }
  | .command c =>
    { about := c.about
      usage := " ".intercalate (path ++ (if c.switches.isEmpty then [] else ["[OPTIONS]"]) ++
        c.operands.map fun o => o.term.1)
      sections := [
        ("Arguments", c.operands.map Operand.term),
        ("Options", c.switches.map Switch.term ++ [helpTerm])] }

/-- The manual of the member that shows manuals. -/
def helpManual (path : List String) : Manual :=
  { about := helpAbout
    usage := " ".intercalate (path ++ [helpName, "[COMMAND]..."])
    sections := [("Arguments", [("[COMMAND]...", "Print help for the subcommand(s)")])] }

end StatusRegistry.CommandLine
