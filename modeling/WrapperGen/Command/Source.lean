import WrapperGen.Command.Problem
import WrapperGen.Config.Document
import WrapperGen.Assembly.Document
/-!
# Sources

The documents that a command works with, read from a disk: a configuration and an assembly.
-/

namespace WrapperGen.Command

open Files (Disk)

variable {m : Type → Type} [Monad m]

/-- The file that the configuration is read from if no other is named and it is there. -/
def configFile : String := "sdkwrap.toml"

/-- What an error says of a file that cannot be read. -/
def unreadable (path : String) (cause : Files.Cause) : String :=
  "failed to read " ++ path ++ ": " ++ cause.message

/-- Reads the configuration in a file. -/
def readConfig (disk : Disk m) (path : String) : m (Except Error Config) := do
  match ← disk.read path with
  | .ok text => return Config.read text
  | .error cause => return .error (.configuration (unreadable path cause))

/-- Reads the configuration of a call: from the named file, or else from the usual one, or else the
default. -/
def loadConfig (disk : Disk m) (named : Option String) : m (Except Problem Config) := do
  match named with
  | some path => return (← readConfig disk path).mapError .configuration
  | none =>
    if ← disk.isFile configFile then
      return (← readConfig disk configFile).mapError .configuration
    else return .ok .default

/-- Reads the assembly document in a file. -/
def readAssembly (disk : Disk m) (path : String) : m (Except Error Assembly) := do
  match ← disk.read path with
  | .ok text => return Assembly.read text
  | .error cause => return .error (.metadata (unreadable path cause) false)

/-- Reads the assembly document of a call. -/
def loadAssembly (disk : Disk m) (path : String) : m (Except Problem Assembly) := do
  return (← readAssembly disk path).mapError (.assembly path)

end WrapperGen.Command
