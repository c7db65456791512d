import WrapperGen.Template.Argument
/-!
# Tags

A tag stands between two opening and two closing braces. It writes a value, calls a helper, opens,
turns or closes a block, or is a comment. A tilde inside of either pair of braces asks for the
blanks on that side of the tag to go.

1. In three braces a tag writes a value or calls a helper; so it does with its value in braces of
   its own, and tildes between those and the outer ones.
2. The word `else` needs no gap after it: where a block may be opened with what follows the word,
   the tag turns a block and opens another, even if a path of that name could be meant.
3. A comment that starts with two dashes ends with two dashes, if there are any before braces.
-/

namespace WrapperGen.Template

/-- What opens a block: the name of a helper, what it is given, and the names by which the body
calls the values that the helper goes through. -/
structure Head where
  name : String
  inputs : Inputs
  binds : List String
  deriving Repr, Inhabited

/-- What a tag does. -/
inductive Tag where
  /-- Writes a value. -/
  | value (a : Argument)
  /-- Calls a helper by name. -/
  | call (name : String) (inputs : Inputs)
  /-- Opens a block. -/
  | openBlock (head : Head)
  /-- Starts the other branch of a block. -/
  | otherwise
  /-- Starts the other branch of a block with a block that fills it. -/
  | otherwiseBlock (head : Head)
  /-- Ends a block. -/
  | closeBlock (name : String)
  | comment
  deriving Repr, Inhabited

/-- A tag may stand alone on a line when it writes nothing. -/
def Tag.isSilent : Tag → Bool
  | .value _ => false
  | .call _ _ => false
  | _ => true

/-- A tag with its tildes. -/
structure MarkedTag where
  tag : Tag
  /-- Blanks before the tag go. -/
  trimBefore : Bool
  /-- Blanks after the tag go. -/
  trimAfter : Bool
  deriving Repr, Inhabited

/-- Two opening braces. -/
def opening : List Char := ['\x7b', '\x7b']

/-- Two closing braces. -/
def closing : List Char := ['\x7d', '\x7d']

/-! ## Inside of a tag -/

/-- The names of the values that a block goes through. -/
def Head.scanBinds : Scan (List String) := do
  Scan.mark ['a', 's']
  Scan.mark ['|']
  Scan.gaps
  let first ← identifier
  let second ← Scan.optional (do Scan.gaps; identifier)
  Scan.mark ['|']
  return first :: second.toList

/-- What opens a block. -/
def Head.scan : Scan Head := do
  Scan.gaps
  let name ← identifier
  let inputs ← Inputs.scanHere
  let binds ← Scan.optional Head.scanBinds
  return ⟨name, inputs, binds.getD []⟩

/-- A value to write. -/
def Tag.scanValue : Scan Tag := do
  Scan.gaps
  .value <$> ((.path <$> Path.scan) <|> Argument.scanCallHere)

/-- A call of a helper that is given something. -/
def Tag.scanCall : Scan Tag := do
  Scan.gaps
  let name ← identifier
  let inputs ← Inputs.scanHere
  guard !inputs.isEmpty
  return .call name inputs

/-- A call or a value. -/
def Tag.scanExpression : Scan Tag := Tag.scanCall <|> Tag.scanValue

/-! ## Whole tags

Each of these reads what follows the two opening braces of a tag, closing braces included. -/

namespace MarkedTag

/-- The end of a tag: maybe a tilde, and braces. -/
def close (before : Bool) (braces : List Char) (tag : Tag) : Scan MarkedTag := do
  let after ← Scan.flag ['~']
  Scan.mark braces
  return ⟨tag, before, after⟩

/-- A tag that turns a block. -/
def scanOtherwise : Scan MarkedTag := do
  let before ← Scan.flag ['~']
  Scan.gaps
  Scan.word ['e', 'l', 's', 'e'] <|> Scan.word ['^']
  (do let head ← Head.scan; close before closing (.otherwiseBlock head)) <|>
    close before closing .otherwise

/-- A tag that writes a value or calls a helper. -/
def scanExpression : Scan MarkedTag := do
  let before ← Scan.flag ['~']
  let tag ← Tag.scanExpression
  close before closing tag

/-- The same in three braces. -/
def scanTriple : Scan MarkedTag := do
  Scan.word ['\x7b']
  let before ← Scan.flag ['~']
  let tag ← Tag.scanExpression
  close before ('\x7d' :: closing) tag

/-- The same in braces of its own. -/
def scanBraced : Scan MarkedTag := do
  let before ← Scan.flag ['~']
  Scan.mark ['\x7b']
  let tag ← Tag.scanExpression
  Scan.mark ['\x7d']
  close before closing tag

/-- A value after an ampersand. -/
def scanAmpersand : Scan MarkedTag := do
  let before ← Scan.flag ['~']
  Scan.mark ['&']
  let tag ← Tag.scanValue
  close before closing tag

/-- A tag that opens a block. -/
def scanOpen : Scan MarkedTag := do
  let before ← Scan.flag ['~']
  Scan.mark ['#']
  let head ← Head.scan
  close before closing (.openBlock head)

/-- A tag that ends a block. -/
def scanClose : Scan MarkedTag := do
  let before ← Scan.flag ['~']
  Scan.mark ['/']
  Scan.gaps
  let name ← identifier
  close before closing (.closeBlock name)

/-- A comment. -/
def scanComment : Scan MarkedTag := do
  Scan.word ['!']
  (do Scan.mark ['-', '-']; Scan.through (['-', '-'] ++ closing)) <|> Scan.through closing
  return ⟨.comment, false, false⟩

/-- A tag. -/
def scan : Scan MarkedTag :=
  scanOtherwise <|> scanExpression <|> scanTriple <|> scanBraced <|> scanAmpersand <|> scanOpen <|>
    scanClose <|> scanComment

end MarkedTag

end WrapperGen.Template
