import WrapperGen.Json.Reader
import WrapperGen.Template.Path
/-!
# Literals

A value may be written in a tag: in JSON, strings in single quotes, too. What looks like a literal
is one, even where JSON has no such value: then the tag cannot be read. A number, and each of the
words `null`, `true` and `false`, ends where no character of a name follows.
-/

namespace WrapperGen.Template

open WrapperGen.Text

namespace Literal

/-- What follows a string after its opening quote. -/
def dropString? (quote : Char) : List Char → Option (List Char)
  | [] => none
  | '\\' :: 'u' :: a :: b :: c :: d :: rest =>
    if (Json.Token.hex4? a b c d).isSome then dropString? quote rest else none
  | '\\' :: c :: rest =>
    if c == quote || ['\\', '/', 'b', 'f', 'n', 'r', 't'].contains c then dropString? quote rest
    else none
  | c :: rest => if c = quote then some rest else if c = '\\' then none else dropString? quote rest

/-- A string in quotes of a kind. -/
def string (quote : Char) : Scan Unit := fun text =>
  match text with
  | c :: rest => if c = quote then (dropString? quote rest).map ((), ·) else none
  | [] => none

/-- No character of a name follows. -/
def ending : Scan Unit := Scan.refuse (Scan.row isNameChar)

/-- A word that is a literal. -/
def word (w : List Char) : Scan Unit := do
  Scan.word w
  ending

/-- The exponent of a number. -/
def exponent : Scan Unit := do
  Scan.word ['E']
  let _ ← Scan.optional (Scan.word ['-'])
  let _ ← Scan.row Char.isDigit

/-- A number. -/
def number : Scan Unit := do
  let _ ← Scan.optional (Scan.word ['-'])
  let _ ← Scan.row Char.isDigit
  let _ ← Scan.optional (Scan.word ['.'])
  let _ ← Scan.span Char.isDigit
  let _ ← Scan.optional exponent
  ending

/-- A row of things between brackets, each but the first after a comma; the first may be missing.
The fuel bounds their number. -/
def enclosed (fuel : Nat) (opening closing : Char) (item : Scan Unit) : Scan Unit := do
  Scan.word [opening]
  let _ ← Scan.optional (do Scan.gaps; item)
  let _ ← Scan.many (do Scan.mark [',']; Scan.gaps; item) fuel
  Scan.mark [closing]

/-- The characters of a literal. The fuel bounds how deep arrays and objects nest, and how much they
hold. -/
def shape : (fuel : Nat) → Scan Unit
  | 0 => failure
  | fuel + 1 =>
    string '"' <|> string '\'' <|> enclosed fuel '[' ']' (shape fuel) <|>
      enclosed fuel '\x7b' '\x7d' (do
        string '"' <|> string '\''
        Scan.mark [':']
        Scan.gaps
        shape fuel) <|>
      number <|> word ['n', 'u', 'l', 'l'] <|> word ['t', 'r', 'u', 'e'] <|>
      word ['f', 'a', 'l', 's', 'e']

/-- The characters of a literal at the head of a text. -/
def chars : Scan (List Char) := fun text =>
  (Scan.traced (shape (text.length + 1)) text).map fun ((_, chars), rest) => (chars, rest)

/-- The inside of a string in single quotes, written for double quotes. -/
def requote : List Char → List Char
  | '\\' :: '\'' :: rest => '\'' :: requote rest
  | '"' :: rest => '\\' :: '"' :: requote rest
  | c :: rest => c :: requote rest
  | [] => []

/-- The text of a literal in JSON. -/
def toJson : List Char → String
  | '\'' :: rest => String.ofList ('"' :: requote rest.dropLast ++ ['"'])
  | text => String.ofList text

/-- How deep arrays and objects nest in a literal, at most. -/
def maxDepth : Nat := 127

/-- The value that the characters of a literal write. -/
def value? (text : List Char) : Option Json.Value :=
  ((Json.Value.read? (toJson text)).filter (·.fits maxDepth)).map Json.Value.sorted

/-- A literal. -/
def scan : Scan Json.Value := fun text => do
  let (chars, rest) ← chars text
  let v ← value? chars
  return (v, rest)

end Literal

end WrapperGen.Template
