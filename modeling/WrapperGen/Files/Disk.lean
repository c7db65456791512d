import WrapperGen.Files.Path
/-!
# Disks

What the program asks of a disk. A disk may keep its state wherever it likes: everything here is
said for any of them. Operations take paths as texts and either work or give a cause.
-/

namespace WrapperGen.Files

/-- Why an operation did not work. -/
inductive Cause where
  | notFound
  | notDirectory
  | isDirectory
  | alreadyExists
  | nameTooLong
  | busy
  /-- The place may not be reached. -/
  | denied
  /-- The path holds the character zero. -/
  | zeroCharacter
  /-- Any other, in words. -/
  | other (text : String)
  deriving DecidableEq, Repr, Inhabited

/-- The words for a cause. -/
def Cause.message : Cause → String
  | notFound => "No such file or directory (os error 2)"
  | denied => "Permission denied (os error 13)"
  | busy => "Device or resource busy (os error 16)"
  | alreadyExists => "File exists (os error 17)"
  | notDirectory => "Not a directory (os error 20)"
  | isDirectory => "Is a directory (os error 21)"
  | nameTooLong => "File name too long (os error 36)"
  | zeroCharacter => "file name contained an unexpected NUL byte"
  | other text => text

/-- A disk whose operations run in `m`. -/
structure Disk (m : Type → Type) where
  /-- The path leads to a directory. -/
  isDirectory (path : String) : m Bool
  /-- The path leads to a file. -/
  isFile (path : String) : m Bool
  /-- The content of a file. -/
  read (path : String) : m (Except Cause String)
  /-- Makes a directory in one that is there. -/
  makeDirectory (path : String) : m (Except Cause Unit)
  /-- Makes an empty file, or empties the file that is there. -/
  create (path : String) : m (Except Cause Unit)
  /-- Makes an empty file unless one is there. -/
  ensure (path : String) : m (Except Cause Unit)
  /-- Adds text at the end of a file. -/
  append (path content : String) : m (Except Cause Unit)
  /-- Hands on what was added to a file and is still held back. -/
  flush (path : String) : m (Except Cause Unit)
  /-- Waits until a file is on its medium. -/
  sync (path : String) : m (Except Cause Unit)
  /-- Gives a file another path; a file there is replaced. -/
  rename (source target : String) : m (Except Cause Unit)
  /-- Removes a file. -/
  remove (path : String) : m (Except Cause Unit)

namespace Disk

variable {m : Type → Type} [Monad m]

/-- Makes a directory and those it is in, from the innermost that can be made. A directory that is
there counts as made. The fuel bounds how many are made. -/
def makeDirectoriesWith (disk : Disk m) : (fuel : Nat) → (path : List Char) → m (Except Cause Unit)
  | 0, _ => return .error .nameTooLong
  | fuel + 1, path => do
    let text := String.ofList path
    if path.isEmpty then return .ok ()
    match ← disk.makeDirectory text with
    | .ok () => return .ok ()
    | .error cause =>
      if cause = .notFound then
        match parent? path with
        | none => return .error (.other "failed to create whole tree")
        | some outer =>
          match ← disk.makeDirectoriesWith fuel outer with
          | .error cause => return .error cause
          | .ok () =>
            match ← disk.makeDirectory text with
            | .ok () => return .ok ()
            | .error cause => if ← disk.isDirectory text then return .ok () else return .error cause
      else if ← disk.isDirectory text then return .ok ()
      else return .error cause

/-- Makes a directory and those it is in. -/
def makeDirectories (disk : Disk m) (path : String) : m (Except Cause Unit) :=
  disk.makeDirectoriesWith (path.length + 1) path.toList

end Disk

end WrapperGen.Files
