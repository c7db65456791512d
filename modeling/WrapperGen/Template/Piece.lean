import WrapperGen.Template.Tag
import WrapperGen.Text.Blank
/-!
# Pieces of a template

A template is text with tags in double braces. Reading takes two steps. The first cuts the text at
the tags. The second removes blanks around tags:

1. all of them on the side where a tag has a tilde;
2. the rest of the line where a tag that writes nothing stands alone on it.

A backslash before two braces makes them text; of several backslashes one is dropped and the
braces open a tag.
-/

namespace WrapperGen.Template

open WrapperGen.Text

/-- A part of a template. -/
inductive Piece where
  | text (chars : List Char)
  /-- A tag, with whether only blanks stand before it on its line, and only blanks after it. -/
  | tag (t : MarkedTag) (startsLine endsLine : Bool)
  deriving Repr, Inhabited

/-! ## Cutting at the tags -/

/-- A blank inside a line. -/
def isLineBlank (c : Char) : Bool := c == ' ' || c == '\t'

/-- A character that ends a line. -/
def isLineEnd (c : Char) : Bool := c == '\n' || c == '\r'

/-- Only blanks come before the next line end or the end of the text. -/
def endsLine (text : List Char) : Bool :=
  match text.dropWhile isLineBlank with
  | [] => text.isEmpty
  | c :: _ => isLineEnd c

/-- Only blanks come after the last line end of the text, given last character first. Without one
the text has to be what the template starts with. -/
def startsLine (first : Bool) (reversed : List Char) : Bool :=
  match reversed.dropWhile isLineBlank with
  | [] => first
  | c :: _ => isLineEnd c

/-- What ends a text. -/
inductive TextEnd where
  /-- The template ends. -/
  | finished
  /-- A tag opens, and this follows its braces. -/
  | atTag (rest : List Char)
  deriving Repr, Inhabited

/-- Reads text up to the next tag. `done` holds what was read, last character first, and
`slashes` is how many backslashes stand at its end. -/
def readText (done : List Char) (slashes : Nat) : List Char → List Char × TextEnd
  | [] => (done, .finished)
  | '\x7b' :: '\x7b' :: rest =>
    match slashes with
    | 0 => (done, .atTag rest)
    | 1 =>
      match rest with
      | '\x7b' :: '\x7b' :: rest => readText (opening ++ opening ++ done.tail) 0 rest
      | rest => readText (opening ++ done.tail) 0 rest
    | _ => (done.tail, .atTag rest)
  | c :: rest => readText (c :: done) (if c = '\\' then slashes + 1 else 0) rest

/-- Cuts a template into pieces. The fuel is a bound on the number of tags. -/
def cut? : (fuel : Nat) → (first : Bool) → List Char → Option (List Piece)
  | 0, _, _ => none
  | fuel + 1, first, text =>
    match readText [] 0 text with
    | (done, .finished) => some (if done.isEmpty then [] else [.text done.reverse])
    | (done, .atTag rest) => do
      let (t, rest) ← MarkedTag.scan rest
      let pieces ← cut? fuel false rest
      let tag := Piece.tag t (startsLine first done) (endsLine rest)
      return if done.isEmpty then tag :: pieces else .text done.reverse :: tag :: pieces

/-! ## Removing blanks -/

/-- A tag that stands alone on its line. -/
def isAlone (t : MarkedTag) (startsLine endsLine : Bool) : Bool :=
  t.tag.isSilent && startsLine && endsLine

/-- The text without one line end at its head. -/
def dropLineEnd : List Char → List Char
  | '\r' :: '\n' :: rest => rest
  | '\n' :: rest => rest
  | text => text

/-- What the tags before a text ask of it. -/
structure Trimming where
  /-- Blanks at its head go. -/
  all : Bool
  /-- The rest of its first line goes. -/
  line : Bool
  deriving DecidableEq, Repr, Inhabited

/-- Trims the head of a text. -/
def Trimming.head (t : Trimming) (text : List Char) : List Char :=
  if t.all then trimStart text
  else if t.line then dropLineEnd (text.dropWhile isLineBlank)
  else text

/-- Trims the tail of a text before the next piece. -/
def trimTail (next : List Piece) (text : List Char) : List Char :=
  match next with
  | .tag t startsLine endsLine :: _ =>
    let text := if t.trimBefore then trimEnd text else text
    if isAlone t startsLine endsLine then (text.reverse.dropWhile isLineBlank).reverse else text
  | _ => text

/-- What follows a text is trimmed as before, but for a line that has been trimmed already. Where
all blanks go, a text of nothing else leaves what is asked as it is. -/
def Trimming.afterText (t : Trimming) (text : List Char) : Trimming :=
  if t.all && text.all isGap then t else { t with line := false }

/-- What a tag asks of the text after it. A comment adds to what was asked before. -/
def Trimming.afterTag (before : Trimming) (t : MarkedTag) (startsLine endsLine : Bool) : Trimming :=
  match t.tag with
  | .comment => ⟨before.all, isAlone t startsLine endsLine⟩
  | .value _ | .call _ _ => ⟨t.trimAfter, before.line⟩
  | _ => ⟨t.trimAfter, isAlone t startsLine endsLine⟩

/-- A text or a tag, blanks removed. -/
inductive Part where
  | text (s : String)
  | tag (t : Tag)
  deriving Repr, Inhabited

/-- Removes blanks around the tags. -/
def trim (trimming : Trimming) : List Piece → List Part
  | [] => []
  | .text chars :: rest =>
    .text (String.ofList (trimTail rest (trimming.head chars))) ::
      trim (trimming.afterText chars) rest
  | .tag t startsLine endsLine :: rest =>
    .tag t.tag :: trim (trimming.afterTag t startsLine endsLine) rest

/-- The parts of a template. -/
def Part.ofText? (text : String) : Option (List Part) :=
  (cut? (text.length + 1) true text.toList).map (trim ⟨false, false⟩)

end WrapperGen.Template
