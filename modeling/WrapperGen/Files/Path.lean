/-!
# Paths

A path is a text of names separated by slashes. Empty names and single dots lead nowhere; two dots
lead outwards. Paths stay the texts that they are given as: joining and taking parents only cut and
append.

Main statement: `slash_notMem_of_mem_split`.
-/

namespace WrapperGen.Files

/-! ## Names -/

/-- The names of a path, empty ones included. -/
def split : List Char → List (List Char)
  | [] => [[]]
  | c :: text =>
    if c = '/' then [] :: split text
    else
      match split text with
      | [] => [[c]]
      | name :: names => (c :: name) :: names

/-- The path of names. -/
def joinNames : List (List Char) → List Char
  | [] => []
  | [name] => name
  | name :: names => name ++ '/' :: joinNames names

theorem split_ne_nil (text : List Char) : split text ≠ [] := by
  cases text with
  | nil => simp [split]
  | cons c text =>
    simp only [split]
    split
    · simp
    · split <;> simp

theorem slash_notMem_of_mem_split {text name : List Char} (h : name ∈ split text) :
    '/' ∉ name := by
  induction text generalizing name with
  | nil => simp [split] at h; simp [h]
  | cons c text ih =>
    simp only [split] at h
    split at h
    · rcases List.mem_cons.1 h with rfl | h
      · simp
      · exact ih h
    · next hc =>
      obtain ⟨first, names, hs⟩ := List.exists_cons_of_ne_nil (split_ne_nil text)
      rw [hs] at h ih
      rcases List.mem_cons.1 h with rfl | h
      · simpa [Ne.symm hc] using ih (List.mem_cons_self ..)
      · exact ih (List.mem_cons_of_mem _ h)

/-- The name that leads nowhere. -/
def here : List Char := ['.']

/-- The name that leads outwards. -/
def outwards : List Char := ['.', '.']

/-- A name that leads nowhere. -/
def isIdle (name : List Char) : Bool := name.isEmpty || name == here

/-! ## Joining and cutting -/

/-- A path after a directory. An absolute path stands for itself. -/
def join (directory path : List Char) : List Char :=
  if path.head? = some '/' then path
  else if directory.isEmpty then path
  else if directory.getLast? = some '/' then directory ++ path
  else directory ++ '/' :: path

/-- The last name of a path that leads somewhere, and the names before it. -/
def lastName? (path : List Char) : Option (List (List Char) × List Char) :=
  match (split path).reverse.dropWhile isIdle with
  | [] => none
  | name :: before => some (before.reverse, name)

/-- The path of the names before a last one: idle names at its end go, but not the first name, which
may stand for the root or the place that relative paths start from. -/
def parentOf : List (List Char) → List Char
  | [] => []
  | first :: names =>
    match (names.reverse.dropWhile isIdle).reverse with
    | [] => if first.isEmpty then ['/'] else first
    | names => joinNames (first :: names)

/-- The path of what a path is in, if it leads anywhere. -/
def parent? (path : List Char) : Option (List Char) :=
  match lastName? path with
  | some (before, _) => some (parentOf before)
  | none => if path.head? = some '.' then some [] else none

/-- A path that stays in the directory it is joined to: it is not empty or absolute, and no name
leads outwards. -/
def isContained (path : List Char) : Bool :=
  !path.isEmpty && path.head? != some '/' && !(split path).contains outwards

/-- What is put after a name to name its temporary companion. -/
def temporaryMark : List Char := ['.', 't', 'm', 'p']

/-- The temporary companion of a path, in the same directory. A path without a last name gets one
that is the mark alone. -/
def companion (path : List Char) : List Char :=
  match lastName? path with
  | some (before, name) =>
    if name = outwards then join path temporaryMark
    else join (parentOf before) (name ++ temporaryMark)
  | none => join path temporaryMark

end WrapperGen.Files
