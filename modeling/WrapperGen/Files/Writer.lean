import WrapperGen.Config.Basic
import WrapperGen.Files.Disk
/-!
# Writing script files

Files are written one after another into a directory that is there. A file is either added to, or
made anew, or, in one step, made beside its place and moved there. The first failure ends the
writing; what was written before stays.
-/

namespace WrapperGen.Files

/-- Why files could not be written. -/
inductive WriteError where
  /-- The output directory is not there. -/
  | directoryNotFound (path : String)
  /-- A file would leave the output directory. -/
  | invalidName (path : String)
  /-- An operation on a path did not work. -/
  | failed (operation path : String) (cause : Cause)
  deriving DecidableEq, Repr, Inhabited

namespace WriteError

/-- The text of an error. -/
def message : WriteError → String
  | directoryNotFound path => "Output directory not found: " ++ path
  | invalidName path => "Invalid output file name: " ++ path
  | failed operation path cause =>
    "Failed to " ++ operation ++ " " ++ path ++ ": " ++ cause.message

def isDirectoryNotFound : WriteError → Bool
  | directoryNotFound _ => true
  | _ => false

def isInvalidName : WriteError → Bool
  | invalidName _ => true
  | _ => false

def isFailed : WriteError → Bool
  | failed .. => true
  | _ => false

end WriteError

/-- How files are written. -/
structure WriteOptions where
  mode : WriteMode
  /-- A file is replaced in one step. -/
  atomic : Bool
  deriving DecidableEq, Repr, Inhabited

namespace WriteOptions

/-- Files are replaced in one step. -/
def default : WriteOptions := ⟨.replace, true⟩

/-- The way that a configuration asks for. -/
def ofConfig (c : Config) : WriteOptions := ⟨c.writeMode, c.atomic⟩

end WriteOptions

variable {m : Type → Type} [Monad m]

/-- The result of an operation on a path. -/
def doing (operation path : String) : Except Cause Unit → Except WriteError Unit
  | .ok () => .ok ()
  | .error cause => .error (.failed operation path cause)

/-- Adds the content to a file that was just opened, and waits until it is on its medium. -/
def fill (disk : Disk m) (path content : String) : m (Except WriteError Unit) := do
  match doing "write" path (← disk.append path content) with
  | .error e => return .error e
  | .ok () =>
    match doing "flush" path (← disk.flush path) with
    | .error e => return .error e
    | .ok () => return doing "sync" path (← disk.sync path)

/-- Adds the content at the end of a file. -/
def writeAppending (disk : Disk m) (path content : String) : m (Except WriteError Unit) := do
  match doing "open" path (← disk.ensure path) with
  | .error e => return .error e
  | .ok () => fill disk path content

/-- Makes a file anew. -/
def writeDirectly (disk : Disk m) (path content : String) : m (Except WriteError Unit) := do
  match doing "create" path (← disk.create path) with
  | .error e => return .error e
  | .ok () => fill disk path content

/-- Makes a file beside a path and moves it there. -/
def writeAside (disk : Disk m) (path content : String) : m (Except WriteError Unit) := do
  let aside := String.ofList (companion path.toList)
  match doing "create" aside (← disk.create aside) with
  | .error e => return .error e
  | .ok () =>
    match ← fill disk aside content with
    | .error e =>
      let _ ← disk.remove aside
      return .error e
    | .ok () => return doing "rename" aside (← disk.rename aside path)

/-- Writes one file. -/
def writeFile (disk : Disk m) (options : WriteOptions) (path content : String) :
    m (Except WriteError Unit) :=
  match options.mode, options.atomic with
  | .append, _ => writeAppending disk path content
  | .replace, true => writeAside disk path content
  | .replace, false => writeDirectly disk path content

/-- The path of a file in the output directory. -/
def targetPath (directory path : String) : String :=
  String.ofList (join directory.toList path.toList)

/-- Writes files into a directory, and gives their paths. -/
def writeFiles (disk : Disk m) (options : WriteOptions) (directory : String) :
    List CodeFile → m (Except WriteError (List String))
  | [] => return .ok []
  | f :: fs => do
    if !isContained f.path.toList then return .error (.invalidName f.path)
    let path := targetPath directory f.path
    match ← writeFile disk options path f.content with
    | .error e => return .error e
    | .ok () => return (← writeFiles disk options directory fs).map (path :: ·)

/-- Writes all files into a directory that has to be there, and gives their paths. -/
def writeCode (disk : Disk m) (options : WriteOptions) (directory : String) (c : Code) :
    m (Except WriteError (List String)) := do
  if ← disk.isDirectory directory then writeFiles disk options directory c.files
  else return .error (.directoryNotFound directory)

end WrapperGen.Files
