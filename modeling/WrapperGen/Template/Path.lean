import WrapperGen.Template.Scan
/-!
# Paths

A path says which value of the context a template means: where to start, and which members to
follow. `a.b` and `a/b` start at the innermost scope, `../a` one scope further out, `@root/a` at
the whole context; `@index` is a mark that a loop keeps. The name `this` leads nowhere else.
-/

namespace WrapperGen.Template

open WrapperGen.Text

/-- Where a path starts. -/
inductive Origin where
  /-- At the whole context. -/
  | root
  /-- At the value of a scope, counted from the innermost. -/
  | scope (up : Nat)
  /-- At the marks of a scope, counted from the innermost. -/
  | marks (up : Nat)
  deriving DecidableEq, Repr, Inhabited

/-- A path through the context. -/
structure Path where
  origin : Origin
  names : List String
  /-- The path as it is written. -/
  text : String
  deriving DecidableEq, Repr, Inhabited

/-- A character of names that stand without brackets. -/
def isNameChar (c : Char) : Bool :=
  c.isAlphanum || c == '_' || c == '-' || c == ':' || c == '$' || 0x80 ≤ c.toNat

/-- A name without brackets. -/
def identifier : Scan String := String.ofList <$> Scan.row isNameChar

namespace Path

/-- The word that stands for the current value. -/
def current : List Char := ['t', 'h', 'i', 's']

/-- The word for the whole context. -/
def whole : List Char := ['@', 'r', 'o', 'o', 't']

/-- What stands between the names of a path. -/
def separator : Scan Unit := Scan.word ['.'] <|> Scan.word ['/']

/-- A word and a separator. -/
def step (word : List Char) : Scan Unit := do
  Scan.word word
  separator

/-- A name in brackets. -/
def bracketed : Scan String := do
  Scan.word ['[']
  let name ← Scan.span (· ≠ ']')
  Scan.word [']']
  return String.ofList name

/-- A name, bare or in brackets. -/
def name : Scan String := identifier <|> bracketed

/-- A separator and a name. -/
def member : Scan String := do
  separator
  name

/-- Where a path starts that goes on with names. -/
def originOf (fromRoot atMarks : Bool) (up : Nat) (names : List String) : Origin :=
  if fromRoot then .root
  else if atMarks then if names.isEmpty then .scope 0 else .marks up
  else .scope up

/-- Where a path starts, and its names. The fuel bounds the number of steps outwards and inwards. -/
def parts (fuel : Nat) : Scan (Origin × List String) := do
  let _ ← Scan.optional (step current <|> Scan.word ['.', '/'])
  let fromRoot ← Scan.optional (step whole)
  let atMarks ← Scan.optional (Scan.word ['@'])
  let ups ← Scan.many (step ['.', '.']) fuel
  let first ← name
  let more ← Scan.many member fuel
  let names := (first :: more).filter (· ≠ String.ofList current)
  return (originOf fromRoot.isSome atMarks.isSome ups.length names, names)

/-- A path. -/
def scan : Scan Path := fun text => do
  let (((origin, names), chars), rest) ← Scan.traced (parts text.length) text
  return (⟨origin, names, String.ofList chars⟩, rest)

end Path

end WrapperGen.Template
