import WrapperGen.Command.Completion
import WrapperGen.Command.Generate
import WrapperGen.Command.Inspect
/-!
# The program

A call is read, its command is run on a disk, and the result is printed in the format that was asked
for. The format is checked before the command does anything.
-/

namespace WrapperGen.Command

open Console (ExitCode OutputFormat)
open Files (Disk)
open Json (Value)

/-- How a call of the program ends. -/
inductive Ending where
  /-- A text was printed. -/
  | printed (text : String) (code : ExitCode)
  /-- Nothing was printed; the message tells why. -/
  | failed (message : String) (code : ExitCode)
  /-- The arguments could not be understood. -/
  | misused (reason : String)
  /-- There were no arguments; the manual is shown as for a mistake. -/
  | idle
  deriving DecidableEq, Repr, Inhabited

/-- The exit code of an ending. -/
def Ending.exitCode : Ending → ExitCode
  | printed _ code => code
  | failed _ code => code
  | misused _ => .invalidInput
  | idle => .invalidInput

/-- How results are printed. -/
structure Presentation where
  format : OutputFormat
  /-- Outlines have colours. -/
  colored : Bool
  deriving DecidableEq, Repr, Inhabited

/-- The ending with a result printed on lines of its own, or the problem. -/
def Ending.ofResult {α : Type} (p : Presentation) (toValue : α → Value)
    (exitCode : α → ExitCode) : Except Problem α → Ending
  | .ok a => .printed (p.format.render p.colored (toValue a) ++ "\n") (exitCode a)
  | .error problem => .failed problem.message .error

/-- The ending of a call that was not read to its end. -/
def Ending.ofStop : Console.Stop → Ending
  | .help => .printed manual .success
  | .version => .printed versionText .success
  | .nothingAsked => .idle
  | .misuse reason => .misused reason

variable {m : Type → Type} [Monad m]

/-- Does what is to be done. -/
def Action.run (disk : Disk m) (p : Presentation) : Action → m Ending
  | .generate o => do
    let result ← generateFiles disk o
    return .ofResult p GenerationSummary.toValue GenerationSummary.exitCode result
  | .inspect o => do
    let result ← inspectAssembly disk o
    return .ofResult p InspectReport.toValue (fun _ => .success) result
  | .completions shell => return .printed shell.completionScript .success

/-- Runs a call. -/
def Call.run (disk : Disk m) (colored : Bool) (c : Call) : m Ending :=
  match OutputFormat.ofWord c.format with
  | .ok format => c.action.run disk ⟨format, colored⟩
  | .error e => return .failed e.message .invalidInput

/-- Runs the program with arguments. `environment` is the configuration file that the environment
names. -/
def runProgram (disk : Disk m) (colored : Bool) (arguments : List String)
    (environment : Option String) : m Ending :=
  match Call.read arguments environment with
  | .ok call => call.run disk colored
  | .error stop => return .ofStop stop

end WrapperGen.Command
