import WrapperGen.Command.Call
/-!
# The manual

What the program tells of itself: its version, and how it is called.
-/

namespace WrapperGen.Command

open Console (OptionSpec CommandSpec)

/-- What the program is called by. -/
def programName : String := "sdkwrap"

/-- The version of the program. -/
def version : String := "0.1.0"

/-- The line that tells the version. -/
def versionText : String := programName ++ " " ++ version ++ "\n"

/-- A command as the manual shows it. -/
structure Entry where
  name : String
  /-- What stands in its position. -/
  position : String
  /-- What it does. -/
  about : String
  spec : CommandSpec

/-- The commands of the program. -/
def entries : List Entry :=
  [⟨"generate", "<METADATA>", "Write functions for every endpoint of an assembly", generateSpec⟩,
    ⟨"inspect", "<METADATA>", "Show clients and endpoints", inspectSpec⟩,
    ⟨"completions", "<SHELL>", "Print completions for a shell", completionsSpec⟩]

/-- The names of all commands. -/
def commandNames : List String := entries.map (·.name) ++ ["help"]

/-- An option as it is written in a call. -/
def optionFlag (o : OptionSpec) : String := "--" ++ o.name

/-- The line for an option. -/
def optionLine (o : OptionSpec) : String :=
  let letter := match o.letter with
    | some c => "-" ++ c.toString ++ ", "
    | none => "    "
  let value := match o.rule with
    | some _ => " <VALUE>"
    | none => ""
  "  " ++ letter ++ optionFlag o ++ value

/-- The lines for a command. -/
def Entry.lines (e : Entry) : List String :=
  ["", e.about, "  " ++ programName ++ " " ++ e.name ++ " [OPTIONS] " ++ e.position] ++
    e.spec.options.map optionLine

/-- How the program is called. -/
def manual : String :=
  String.join <| (("Usage: " ++ programName ++ " [OPTIONS] <COMMAND>") ::
    entries.flatMap Entry.lines).map (· ++ "\n")

end WrapperGen.Command
