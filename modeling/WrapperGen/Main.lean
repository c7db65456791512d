import WrapperGen.Command.Program
/-!
# The command line

Runs the program on the disk of the machine. With `--verbose` every operation on the disk is told on
the error stream.
-/

namespace WrapperGen

open Command (Call Ending)
open Files (Cause Disk)

/-- The variable of the environment that names a configuration file. -/
def configVariable : String := "SDKWRAP_CONFIG"

/-- The cause of an error of the machine. -/
def causeOf : IO.Error → Cause
  | .noFileOrDirectory _ _ _ => .notFound
  | .noSuchThing _ _ _ => .notFound
  | .alreadyExists _ _ _ => .alreadyExists
  | .permissionDenied _ _ _ => .denied
  | .resourceBusy _ _ => .busy
  | .inappropriateType _ code details =>
    if code = 20 then .notDirectory
    else if code = 21 then .isDirectory
    else .other details
  | .invalidArgument _ code details => if code = 36 then .nameTooLong else .other details
  | e => .other (toString e)

/-- Runs an operation, and tells it first. -/
def operate {α : Type} (verbose : Bool) (operation path : String) (run : IO α) :
    IO (Except Cause α) := do
  if verbose then IO.eprintln (operation ++ " " ++ path)
  try
    return .ok (← run)
  catch e => return .error (causeOf e)

/-- A path can be opened for reading. -/
def opens (path : String) : IO Bool := do
  try
    let _ ← IO.FS.Handle.mk ⟨path⟩ .read
    return true
  catch _ => return false

/-- The disk of the machine. -/
def machineDisk (verbose : Bool) : Disk IO where
  isDirectory path := if path.isEmpty then return false else opens (path ++ "/.")
  isFile path := do
    if ← opens (path ++ "/.") then return false
    opens path
  read path := operate verbose "read" path (IO.FS.readFile ⟨path⟩)
  makeDirectory path := operate verbose "make directory" path (IO.FS.createDir ⟨path⟩)
  create path := operate verbose "create" path (IO.FS.writeFile ⟨path⟩ "")
  ensure path := operate verbose "open" path do
    let _ ← IO.FS.Handle.mk ⟨path⟩ .append
  append path content := operate verbose "write" path do
    let file ← IO.FS.Handle.mk ⟨path⟩ .append
    file.putStr content
    file.flush
  -- no file is kept open, so nothing is held back between operations
  flush path := operate verbose "flush" path (return ())
  sync path := operate verbose "sync" path do
    let file ← IO.FS.Handle.mk ⟨path⟩ .append
    file.flush
  rename source target := operate verbose "rename" source (IO.FS.rename ⟨source⟩ ⟨target⟩)
  remove path := operate verbose "remove" path (IO.FS.removeFile ⟨path⟩)

/-- Prints what a call has to say. -/
def report : Ending → IO Unit
  | .printed text _ => IO.print text
  | .failed message _ => IO.eprintln ("error: " ++ message)
  | .misused reason => do
    IO.eprintln ("error: " ++ reason)
    IO.eprint Command.manual
  | .idle => IO.eprint Command.manual

end WrapperGen

open WrapperGen in
/-- Runs the program with the arguments of the call. -/
def main (arguments : List String) : IO UInt32 := do
  let environment ← IO.getEnv configVariable
  let verbose := match Command.Call.read arguments environment with
    | .ok call => call.verbose
    | .error _ => false
  let colored ← (← IO.getStdout).isTty
  let ending ← Command.runProgram (machineDisk verbose) colored arguments environment
  report ending
  return ending.exitCode.value.toNat.toUInt32
