import WrapperGen.Text.Infix
/-!
# Scanners

A scanner takes something off the head of a text, or refuses. Of two scanners `s <|> t` the second
is asked only when the first refuses, and what the first took is not taken back later.
-/

namespace WrapperGen.Template

open WrapperGen.Text

/-- A scanner. -/
abbrev Scan (α : Type) := StateT (List Char) Option α

/-- Blanks between the words of a tag. -/
def isGap (c : Char) : Bool := c == ' ' || c == '\t' || c == '\n' || c == '\r'

/-- The text before the first occurrence of a word, and what follows that occurrence. -/
def splitAt? (word : List Char) : List Char → Option (List Char × List Char)
  | [] => none
  | c :: text =>
    match dropWord? word (c :: text) with
    | some rest => some ([], rest)
    | none => (splitAt? word text).map fun (before, rest) => (c :: before, rest)

namespace Scan

/-- A word. -/
def word (w : List Char) : Scan Unit := fun text => (dropWord? w text).map ((), ·)

/-- Any number of gaps. -/
def gaps : Scan Unit := fun text => some ((), text.dropWhile isGap)

/-- A word after any number of gaps. -/
def mark (w : List Char) : Scan Unit := do
  gaps
  word w

/-- Whether a word follows, which is taken then. -/
def flag (w : List Char) : Scan Bool := (do mark w; return true) <|> return false

/-- A row of at least one character of a kind. -/
def row (kind : Char → Bool) : Scan (List Char) := fun text =>
  match text.takeWhile kind with
  | [] => none
  | c :: cs => some (c :: cs, text.dropWhile kind)

/-- A row of characters of a kind, which may be empty. -/
def span (kind : Char → Bool) : Scan (List Char) := fun text =>
  some (text.takeWhile kind, text.dropWhile kind)

/-- What a scanner takes, or nothing where it refuses. -/
def optional {α : Type} (s : Scan α) : Scan (Option α) := (some <$> s) <|> return none

/-- Nothing, where a scanner refuses. -/
def refuse {α : Type} (s : Scan α) : Scan Unit := fun text =>
  match s text with
  | none => some ((), text)
  | some _ => none

/-- Nothing; whether a scanner takes something. -/
def ahead {α : Type} (s : Scan α) : Scan Bool := fun text => some ((s text).isSome, text)

/-- All up to a word, and the word. -/
def through (w : List Char) : Scan Unit := fun text =>
  (splitAt? w text).map fun (_, rest) => ((), rest)

/-- What a scanner takes, with its characters. -/
def traced {α : Type} (s : Scan α) : Scan (α × List Char) := fun text =>
  (s text).map fun (x, rest) => ((x, text.take (text.length - rest.length)), rest)

/-- A scanner again and again, until it refuses. The fuel bounds how often. -/
def many {α : Type} (s : Scan α) : (fuel : Nat) → Scan (List α)
  | 0 => return []
  | fuel + 1 => (do
      let x ← s
      let xs ← many s fuel
      return x :: xs) <|> return []

end Scan

end WrapperGen.Template
