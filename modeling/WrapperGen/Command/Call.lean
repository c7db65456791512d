import WrapperGen.Console.Arguments
import WrapperGen.Console.Format
/-!
# Calls of the program

The program has three commands: `generate` writes script files, `inspect` shows what would be
generated, and `completions` prints a script for a shell.
-/

namespace WrapperGen.Command

open Console

/-- What `generate` works with. -/
structure GenerateOptions where
  /-- The file with the assembly document. -/
  metadata : String
  /-- The output directory, made if it is missing. -/
  output : String
  /-- The configuration file, if one was named. -/
  config : Option String
  /-- Stands in for the module prefix of the configuration. -/
  modulePrefix : Option String
  /-- Stands in for the handle of the configuration. -/
  handle : Option String
  /-- All functions go into one file. -/
  ungrouped : Bool
  /-- Files are added to. -/
  append : Bool
  /-- Nothing is written. -/
  dryRun : Bool
  deriving DecidableEq, Repr, Inhabited

/-- What `inspect` works with. -/
structure InspectOptions where
  /-- The file with the assembly document. -/
  metadata : String
  /-- The configuration file, if one was named. -/
  config : Option String
  /-- Every endpoint is shown. -/
  detailed : Bool
  deriving DecidableEq, Repr, Inhabited

/-- A shell that completions can be made for. -/
inductive Shell where
  | bash
  | elvish
  | fish
  | powershell
  | zsh
  deriving DecidableEq, Repr, Inhabited

namespace Shell

def all : List Shell := [bash, elvish, fish, powershell, zsh]

/-- The word for a shell. -/
def word : Shell → String
  | bash => "bash"
  | elvish => "elvish"
  | fish => "fish"
  | powershell => "powershell"
  | zsh => "zsh"

end Shell

/-- What is to be done: a command with its options. -/
inductive Action where
  | generate (options : GenerateOptions)
  | inspect (options : InspectOptions)
  | completions (shell : Shell)
  deriving DecidableEq, Repr, Inhabited

/-- A call of the program. -/
structure Call where
  action : Action
  /-- Everything that is done is told. -/
  verbose : Bool
  /-- The word for the format of the result. -/
  format : String
  deriving DecidableEq, Repr, Inhabited

/-! ## Options -/

/-- The options that every command takes. -/
def sharedOptions : List OptionSpec :=
  [⟨"verbose", some 'v', none⟩, ⟨"format", none, some .text⟩, ⟨"help", some 'h', none⟩]

/-- What may stand before a command's name. -/
def programSpec : CommandSpec := ⟨⟨"version", some 'V', none⟩ :: sharedOptions, none⟩

/-- The option that names a configuration file. -/
def configOption : OptionSpec := ⟨"config", some 'c', some .path⟩

/-- What `generate` takes. -/
def generateSpec : CommandSpec :=
  ⟨[⟨"output", some 'o', some .path⟩, configOption, ⟨"module-prefix", none, some .text⟩,
      ⟨"handle-parameter", none, some .text⟩, ⟨"no-grouping", none, none⟩, ⟨"append", none, none⟩,
      ⟨"dry-run", none, none⟩] ++ sharedOptions,
    some .path⟩

/-- What `inspect` takes. -/
def inspectSpec : CommandSpec :=
  ⟨[configOption, ⟨"detailed", some 'd', none⟩] ++ sharedOptions, some .path⟩

/-- What `completions` takes. -/
def completionsSpec : CommandSpec := ⟨sharedOptions, some (.word (Shell.all.map Shell.word))⟩

/-! ## Reading a call -/

/-- The text in the position of a command. -/
def needPosition (g : Given) : Except Stop String :=
  match g.position with
  | some text => .ok text
  | none => .error (.misuse "an argument is missing")

/-- The configuration file: the one that was named, or else the one of the environment, which must
not be empty then. -/
def configPath (g : Given) (environment : Option String) : Except Stop (Option String) :=
  match g.value? "config", environment with
  | some path, _ => .ok (some path)
  | none, none => .ok none
  | none, some path =>
    if ValueRule.path.allows path then .ok (some path)
    else .error (.misuse "'' is no value of --config")

/-- The command of a name with its arguments. -/
def readCommand (name : String) (arguments : List String) (environment : Option String) :
    Except Stop (Action × Given) :=
  let given (spec : CommandSpec) : Except Stop Given :=
    readArguments spec (arguments.length + 1) .empty arguments
  match name with
  | "generate" => do
    let g ← given generateSpec
    let config ← configPath g environment
    let metadata ← needPosition g
    return (.generate {
      metadata, config
      output := (g.value? "output").getD "."
      modulePrefix := g.value? "module-prefix"
      handle := g.value? "handle-parameter"
      ungrouped := g.has "no-grouping"
      append := g.has "append"
      dryRun := g.has "dry-run" }, g)
  | "inspect" => do
    let g ← given inspectSpec
    let config ← configPath g environment
    let metadata ← needPosition g
    return (.inspect { metadata, config, detailed := g.has "detailed" }, g)
  | "completions" => do
    let g ← given completionsSpec
    let word ← needPosition g
    match Shell.all.find? (·.word == word) with
    | some shell => return (.completions shell, g)
    | none => throw (.misuse ("'" ++ word ++ "' is no shell"))
  | "help" =>
    match arguments with
    | [] => .error .help
    | [about] =>
      if ["generate", "inspect", "completions", "help"].contains about then .error .help
      else .error (.misuse ("'" ++ about ++ "' is no command"))
    | _ => .error (.misuse "help is about one command")
  | _ => .error (.misuse ("'" ++ name ++ "' is no command"))

/-- What the arguments of a call ask for. `environment` is the configuration file that the
environment names. -/
def Call.read (arguments : List String) (environment : Option String) : Except Stop Call := do
  let (pending, command) ←
    readProgramOptions programSpec (arguments.length + 1) (.ok .empty) arguments
  match command with
  | none =>
    let outer ← pending
    if outer.options.isEmpty then throw .nothingAsked
    else throw (.misuse "a command is missing")
  | some (name, rest) =>
    let (action, inner) ← readCommand name rest environment
    let outer ← pending
    let format := (inner.value? "format").getD
      ((outer.value? "format").getD OutputFormat.default.word)
    return ⟨action, outer.has "verbose" || inner.has "verbose", format⟩

end WrapperGen.Command
