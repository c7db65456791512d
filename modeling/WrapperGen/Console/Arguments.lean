/-!
# Command lines

What the arguments of a call ask for. Arguments are read in order, and the first one that cannot be
understood, or asks for help, ends the reading.

1. An option is written `--name value` or `--name=value`; with a letter also `-n value`, `-nvalue`
   and `-n=value`. Letters of options without value may be put together.
2. A value that is an argument of its own must not start with a dash, unless it is just a dash.
3. No option may be given twice to one command. After `--` nothing is an option.
4. Options of the program may stand before and after the command's name; what stands after it
   counts.
-/

namespace WrapperGen.Console

/-! ## Options -/

/-- What the value of an option or a position may be. -/
inductive ValueRule where
  /-- Any text. -/
  | text
  /-- A path, which is not empty. -/
  | path
  /-- One of some words. -/
  | word (words : List String)
  deriving DecidableEq, Repr, Inhabited

/-- A text follows the rule. -/
def ValueRule.allows : ValueRule → String → Bool
  | text, _ => true
  | path, s => !s.isEmpty
  | word words, s => words.contains s

/-- An option of a command. -/
structure OptionSpec where
  /-- The name after two dashes. -/
  name : String
  /-- The letter after one dash. -/
  letter : Option Char
  /-- What its value may be, if it takes one. -/
  rule : Option ValueRule
  deriving DecidableEq, Repr, Inhabited

/-- A command: its options, and its one position, if it has one. -/
structure CommandSpec where
  options : List OptionSpec
  position : Option ValueRule
  deriving DecidableEq, Repr, Inhabited

/-- Why reading ended before the end. -/
inductive Stop where
  /-- The program is to explain itself. -/
  | help
  /-- The program is to tell its version. -/
  | version
  /-- There was nothing to do. -/
  | nothingAsked
  /-- An argument cannot be understood. -/
  | misuse (reason : String)
  deriving DecidableEq, Repr, Inhabited

/-- What was given to a command. -/
structure Given where
  /-- Options with their values; an option without value has an empty one. -/
  options : List (String × String)
  position : Option String
  deriving DecidableEq, Repr, Inhabited

namespace Given

def empty : Given := ⟨[], none⟩

def has (g : Given) (name : String) : Bool := (g.options.lookup name).isSome

def value? (g : Given) (name : String) : Option String := g.options.lookup name

/-- Adds an option, which must be a new one. -/
def add (g : Given) (o : OptionSpec) (value : String) : Except Stop Given :=
  if o.name = "help" then .error .help
  else if o.name = "version" then .error .version
  else if g.has o.name then .error (.misuse ("--" ++ o.name ++ " is given twice"))
  else
    match o.rule with
    | some rule =>
      if rule.allows value then .ok { g with options := g.options ++ [(o.name, value)] }
      else .error (.misuse ("'" ++ value ++ "' is no value of --" ++ o.name))
    | none => .ok { g with options := g.options ++ [(o.name, "")] }

/-- Puts a text in the position, which must be free. -/
def place (g : Given) (spec : CommandSpec) (text : String) : Except Stop Given :=
  match spec.position, g.position with
  | some rule, none =>
    if rule.allows text then .ok { g with position := some text }
    else .error (.misuse ("'" ++ text ++ "' is no value here"))
  | _, _ => .error (.misuse ("'" ++ text ++ "' is not expected"))

end Given

/-! ## Reading arguments -/

/-- An argument that options are read from. -/
def looksLikeOption (argument : String) : Bool :=
  argument.toList.head? = some '-' && argument != "-"

/-- The value of an option from the arguments after it, and the rest of these. -/
def takeValue (o : OptionSpec) : List String → Except Stop (String × List String)
  | [] => .error (.misuse ("--" ++ o.name ++ " needs a value"))
  | value :: rest =>
    if looksLikeOption value then .error (.misuse ("--" ++ o.name ++ " needs a value"))
    else .ok (value, rest)

/-- What was given, once the last value is taken in. A value that is an argument of its own is only
looked at when reading goes on after it. -/
abbrev Pending := Except Stop Given

/-- Reads an option from the text after its two dashes. -/
def readNamed (spec : CommandSpec) (g : Given) (text : List Char) (rest : List String) :
    Except Stop (Pending × List String) := do
  let name := String.ofList (text.takeWhile (· ≠ '='))
  let some o := spec.options.find? (·.name == name)
    | throw (.misuse ("--" ++ name ++ " is unknown"))
  match text.dropWhile (· ≠ '='), o.rule with
  | [], none => return (.ok (← g.add o ""), rest)
  | [], some _ =>
    let (value, rest) ← takeValue o rest
    return (g.add o value, rest)
  | _ :: value, some _ => return (.ok (← g.add o (String.ofList value)), rest)
  | _ :: _, none => throw (.misuse ("--" ++ name ++ " takes no value"))

/-- Reads options from the letters after one dash. -/
def readLetters (spec : CommandSpec) (g : Given) (rest : List String) :
    List Char → Except Stop (Pending × List String)
  | [] => .ok (.ok g, rest)
  | c :: letters =>
    match spec.options.find? (·.letter == some c) with
    | none => .error (.misuse ("-" ++ c.toString ++ " is unknown"))
    | some o =>
      match o.rule, letters with
      | none, letters => do readLetters spec (← g.add o "") rest letters
      | some _, [] => do
        let (value, rest) ← takeValue o rest
        return (g.add o value, rest)
      | some _, '=' :: value => do return (.ok (← g.add o (String.ofList value)), rest)
      | some _, value => do return (.ok (← g.add o (String.ofList value)), rest)

/-- Reads an option, and gives the arguments after it. -/
def readOption (spec : CommandSpec) (g : Given) (argument : String) (rest : List String) :
    Except Stop (Pending × List String) :=
  match argument.toList with
  | '-' :: '-' :: text => readNamed spec g text rest
  | _ :: letters => readLetters spec g rest letters
  | [] => .ok (.ok g, rest)

/-- Reads the arguments of a command. The fuel bounds their number. -/
def readArguments (spec : CommandSpec) :
    (fuel : Nat) → Given → List String → Except Stop Given
  | 0, g, _ => .ok g
  | _, g, [] => .ok g
  | fuel + 1, g, argument :: rest =>
    if argument = "--" then rest.foldlM (fun g text => g.place spec text) g
    else if looksLikeOption argument then do
      let (g, rest) ← readOption spec g argument rest
      readArguments spec fuel (← g) rest
    else do readArguments spec fuel (← g.place spec argument) rest

/-- Reads the program's own options up to the name of a command, and gives the name with the
arguments after it. A value right before the name is left to be looked at after the command. -/
def readProgramOptions (spec : CommandSpec) :
    (fuel : Nat) → Pending → List String → Except Stop (Pending × Option (String × List String))
  | 0, g, _ => .ok (g, none)
  | _, g, [] => .ok (g, none)
  | fuel + 1, g, argument :: rest =>
    if argument = "--" then
      match rest with
      | [] => .ok (g, none)
      | text :: _ => .error (.misuse ("'" ++ text ++ "' is not expected"))
    else if looksLikeOption argument then do
      let (g, rest) ← readOption spec (← g) argument rest
      readProgramOptions spec fuel g rest
    else .ok (g, some (argument, rest))

end WrapperGen.Console
