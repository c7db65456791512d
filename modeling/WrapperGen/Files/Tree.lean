import WrapperGen.Files.Disk
/-!
# File trees

A disk in memory: a tree of directories and files below the place where relative paths start. What
is outside of it may not be reached, neither by an absolute path nor by one that leads out of the
tree. There are no links. Nothing is held back: what is added to a file is there at once.

1. A name has at most 255 bytes and a path at most 4095.
2. Every name on the way to the last one has to be a directory, and so has whatever an idle name
   stands after.
3. A path that ends with an idle name or leads outwards at its end names no file.
-/

namespace WrapperGen.Files

/-- What a place in the tree holds. -/
inductive Node where
  | file (content : String)
  | directory
  deriving DecidableEq, Repr, Inhabited

/-- A place in the tree: the names on the way to it. -/
abbrev Place := List String

/-- A tree of files. -/
structure FileTree where
  entries : List (Place × Node)
  deriving DecidableEq, Repr, Inhabited

namespace FileTree

def empty : FileTree := ⟨[]⟩

/-- What a place holds. The root is always a directory. -/
def node? (t : FileTree) (place : Place) : Option Node :=
  if place.isEmpty then some .directory else t.entries.lookup place

/-- Puts something at a place. -/
def set (t : FileTree) (place : Place) (n : Node) : FileTree :=
  ⟨(place, n) :: t.entries.filter (·.1 != place)⟩

/-- Takes away what a place holds. -/
def erase (t : FileTree) (place : Place) : FileTree := ⟨t.entries.filter (·.1 != place)⟩

/-! ## Finding places -/

/-- The most bytes of a name. -/
def maxNameBytes : Nat := 255

/-- The most bytes of a path. -/
def maxPathBytes : Nat := 4095

/-- The place must hold a directory. -/
def checkDirectory (t : FileTree) (place : Place) : Except Cause Unit :=
  match t.node? place with
  | none => .error .notFound
  | some (.file _) => .error .notDirectory
  | some .directory => .ok ()

/-- Follows names from a place. -/
def walk (t : FileTree) (place : Place) : List (List Char) → Except Cause Place
  | [] => .ok place
  | name :: names => do
    t.checkDirectory place
    if isIdle name then t.walk place names
    else if name = outwards then
      if place.isEmpty then .error .denied else t.walk place.dropLast names
    else
      let name := String.ofList name
      if maxNameBytes < name.utf8ByteSize then .error .nameTooLong
      else t.walk (place ++ [name]) names

/-- The place of a path. -/
def locate (t : FileTree) (path : List Char) : Except Cause Place :=
  if path.contains '\x00' then .error .zeroCharacter
  else if path.isEmpty then .error .notFound
  else if maxPathBytes < (String.ofList path).utf8ByteSize then .error .nameTooLong
  else if path.head? = some '/' then .error .denied
  else t.walk [] (split path)

/-- The path ends in a way that only directories can. -/
def endsAsDirectory (path : List Char) : Bool :=
  match (split path).getLast? with
  | some name => isIdle name || name == outwards
  | none => true

/-- The place of a path that names a file, or could. -/
def locateFile (t : FileTree) (path : String) : Except Cause Place := do
  let place ← t.locate path.toList
  if endsAsDirectory path.toList then throw .isDirectory
  return place

/-! ## Operations -/

/-- What a path leads to. -/
def find? (t : FileTree) (path : String) : Option Node :=
  match t.locate path.toList with
  | .ok place => t.node? place
  | .error _ => none

/-- The content of the file at a path. -/
def read (t : FileTree) (path : String) : Except Cause String := do
  let place ← t.locateFile path
  match t.node? place with
  | some (.file content) => .ok content
  | some .directory => .error .isDirectory
  | none => .error .notFound

/-- The tree with a directory made. -/
def makeDirectory (t : FileTree) (path : String) : Except Cause FileTree := do
  let path := (path.toList.reverse.dropWhile (· = '/')).reverse
  let place ← t.locate path
  match t.node? place with
  | some _ => .error .alreadyExists
  | none => .ok (t.set place .directory)

/-- The tree with an empty file. -/
def create (t : FileTree) (path : String) : Except Cause FileTree := do
  let place ← t.locateFile path
  match t.node? place with
  | some .directory => .error .isDirectory
  | _ => .ok (t.set place (.file ""))

/-- The tree with a file. -/
def ensure (t : FileTree) (path : String) : Except Cause FileTree := do
  let place ← t.locateFile path
  match t.node? place with
  | some .directory => .error .isDirectory
  | some (.file _) => .ok t
  | none => .ok (t.set place (.file ""))

/-- The tree with text added to a file. -/
def append (t : FileTree) (path content : String) : Except Cause FileTree := do
  let place ← t.locateFile path
  match t.node? place with
  | some (.file old) => .ok (t.set place (.file (old ++ content)))
  | some .directory => .error .isDirectory
  | none => .error .notFound

/-- The tree with a file at another place. -/
def rename (t : FileTree) (source target : String) : Except Cause FileTree := do
  let start ← t.locateFile source
  let goal ← t.locate target.toList
  if endsAsDirectory target.toList then throw .busy
  match t.node? start, t.node? goal with
  | some (.file _), some .directory => .error .isDirectory
  | some (.file content), _ => .ok ((t.erase start).set goal (.file content))
  | some .directory, _ => .error .isDirectory
  | none, _ => .error .notFound

/-- The tree without a file. -/
def remove (t : FileTree) (path : String) : Except Cause FileTree := do
  let place ← t.locateFile path
  match t.node? place with
  | some (.file _) => .ok (t.erase place)
  | some .directory => .error .isDirectory
  | none => .error .notFound

/-- Runs an operation that may change the tree. -/
def change (operation : FileTree → Except Cause FileTree) : StateM FileTree (Except Cause Unit) :=
  fun t =>
    match operation t with
    | .ok t => (.ok (), t)
    | .error cause => (.error cause, t)

/-- The tree as a disk. -/
def disk : Disk (StateM FileTree) where
  isDirectory path := do return (← get).find? path == some .directory
  isFile path := do
    match (← get).find? path with
    | some (.file _) => return true
    | _ => return false
  read path := do return (← get).read path
  makeDirectory path := change (·.makeDirectory path)
  create path := change (·.create path)
  ensure path := change (·.ensure path)
  append path content := change (·.append path content)
  flush _ := return .ok ()
  sync _ := return .ok ()
  rename source target := change (·.rename source target)
  remove path := change (·.remove path)

end FileTree

end WrapperGen.Files
