import WrapperGen.Generation.Report
import WrapperGen.PowerShell.Emission
/-!
# Script files

A report is rendered into one file for each unit that has functions. A file holds the functions of
its unit, constructors first, each followed by an empty line.
-/

namespace WrapperGen

/-- How files are named: all of them share the start of their names. -/
structure FileNaming where
  stem : String
  deriving DecidableEq, Repr, Inhabited

namespace FileNaming

/-- The usual start of file names. -/
def defaultStem : String := "SdkWrappers"

def default : FileNaming := ⟨defaultStem⟩

/-- The name of the file of a unit. -/
def fileName (naming : FileNaming) (unit : Option String) (extension : String) : String :=
  match unit with
  | some unit => naming.stem ++ "." ++ unit ++ ".Generated." ++ extension
  | none => naming.stem ++ ".Generated." ++ extension

end FileNaming

/-- A file with its path below the output directory. -/
structure CodeFile where
  path : String
  content : String
  deriving DecidableEq, Repr, Inhabited

/-- Files in the order of their units. -/
structure Code where
  files : List CodeFile
  deriving DecidableEq, Repr, Inhabited

namespace Code

/-- How many bytes the files hold together. -/
def totalBytes (c : Code) : Nat :=
  c.files.foldl (fun total f => total + f.content.utf8ByteSize) 0

/-- The text of functions one after another. -/
def contentOf : List FunctionSpec → Except Error String
  | [] => .ok ""
  | f :: fs => do
    let first ← PowerShell.emit f
    let others ← contentOf fs
    return first ++ "\n\n" ++ others

/-- The file of a unit. -/
def fileOf (naming : FileNaming) (u : OutputUnit) : Except Error CodeFile := do
  let content ← contentOf u.functions
  return ⟨naming.fileName u.name PowerShell.fileExtension, content⟩

/-- The files of units, of which empty ones have none. -/
def ofUnits (naming : FileNaming) (units : List OutputUnit) : Except Error Code := do
  let files ← (units.filter fun u => !u.isEmpty).mapM (fileOf naming)
  return ⟨files⟩

/-- The files of a report. -/
def ofReport (naming : FileNaming) (r : Report) : Except Error Code := ofUnits naming r.units

end Code

end WrapperGen
