import WrapperGen.Json.Token
import WrapperGen.Text.Infix
/-!
# Strings and keys of TOML

Basic strings stand in double quotes and have escapes; literal strings stand in single quotes and
have none. Both have a form in three quotes that may span lines. Keys are bare words or strings on
one line, joined by points.
-/

namespace WrapperGen.Toml

open WrapperGen.Text

/-- A blank inside a line. -/
def isBlank (c : Char) : Bool := c == ' ' || c == '\t'

/-- The text from its first character that is no blank. -/
def skipBlanks (text : List Char) : List Char := text.dropWhile isBlank

/-- What follows the end of a line. -/
def dropNewline? : List Char → Option (List Char)
  | '\n' :: rest => some rest
  | '\r' :: '\n' :: rest => some rest
  | _ => none

/-- A character that may stand for itself in strings and comments: none that controls but the
tabulator. -/
def isPlain (c : Char) : Bool := c == '\t' || (0x20 ≤ c.toNat && c.toNat != 0x7F)

/-! ## Escapes -/

/-- The value of a row of hexadecimal digits. -/
def hexNumber? (digits : List Char) : Option Nat :=
  digits.foldl (fun n? c => do
    let n ← n?
    let d ← Json.Token.hexValue? c
    return n * 16 + d) (some 0)

/-- The character of a code point. -/
def charOf? (n : Nat) : Option Char :=
  if n < 0xD800 ∨ 0xE000 ≤ n ∧ n < 0x110000 then some (Char.ofNat n) else none

/-- The character of a number of hexadecimal digits at the head of a text, and what follows. -/
def readCode? (count : Nat) (text : List Char) : Option (Char × List Char) := do
  if text.length < count then none
  let n ← hexNumber? (text.take count)
  let c ← charOf? n
  return (c, text.drop count)

/-- The character of an escape after its backslash, and what follows it. -/
def readEscape? : List Char → Option (Char × List Char)
  | 'b' :: rest => some ('\x08', rest)
  | 't' :: rest => some ('\t', rest)
  | 'n' :: rest => some ('\n', rest)
  | 'f' :: rest => some ('\x0c', rest)
  | 'r' :: rest => some ('\r', rest)
  | 'e' :: rest => some ('\x1b', rest)
  | '"' :: rest => some ('"', rest)
  | '\\' :: rest => some ('\\', rest)
  | 'x' :: rest => readCode? 2 rest
  | 'u' :: rest => readCode? 4 rest
  | 'U' :: rest => readCode? 8 rest
  | _ => none

/-! ## Strings -/

/-- Reads a basic string after its opening quote; `done` holds what was read, last character
first. The fuel bounds the length. -/
def readBasic? : (fuel : Nat) → (done : List Char) → List Char → Option (String × List Char)
  | 0, _, _ => none
  | fuel + 1, done, text =>
    match text with
    | [] => none
    | '"' :: rest => some (String.ofList done.reverse, rest)
    | '\\' :: rest =>
      match readEscape? rest with
      | none => none
      | some (c, rest) => readBasic? fuel (c :: done) rest
    | c :: rest => if isPlain c then readBasic? fuel (c :: done) rest else none

/-- Reads a literal string after its opening quote. -/
def readLiteral? (text : List Char) : Option (String × List Char) :=
  let inner := text.takeWhile isPlain |>.takeWhile (· ≠ '\'')
  match text.drop inner.length with
  | '\'' :: rest => some (String.ofList inner, rest)
  | _ => none

/-- The text without the line end that may follow three opening quotes. -/
def dropFirstNewline (text : List Char) : List Char := (dropNewline? text).getD text

/-- The text from its first character that is neither a blank nor ends a line. -/
def skipSpace : List Char → List Char
  | '\r' :: '\n' :: rest => skipSpace rest
  | c :: rest => if isBlank c || c == '\n' then skipSpace rest else c :: rest
  | [] => []

/-- What follows the backslash at the end of a line: all blanks and line ends go. -/
def dropContinuation? (text : List Char) : Option (List Char) :=
  (dropNewline? (skipBlanks text)).map skipSpace

/-- Reads a string in three quotes after these. Of up to five quotes in a row, the last three close
it. Where `escapes` holds, backslashes escape. -/
def readLong? (quote : Char) (escapes : Bool) :
    (fuel : Nat) → (done : List Char) → List Char → Option (String × List Char)
  | 0, _, _ => none
  | fuel + 1, done, text =>
    let quotes := (text.takeWhile (· = quote)).length
    if 3 ≤ quotes then
      let kept := min quotes 5 - 3
      some (String.ofList (done.reverse ++ List.replicate kept quote), text.drop (kept + 3))
    else
      match text with
      | [] => none
      | '\r' :: '\n' :: rest => readLong? quote escapes fuel ('\n' :: '\r' :: done) rest
      | c :: rest =>
        if escapes ∧ c = '\\' then
          match dropContinuation? rest with
          | some rest => readLong? quote escapes fuel done rest
          | none =>
            match readEscape? rest with
            | none => none
            | some (c, rest) => readLong? quote escapes fuel (c :: done) rest
        else if c = '\n' ∨ isPlain c then readLong? quote escapes fuel (c :: done) rest
        else none

/-- Reads a string on one line. -/
def readShortString? : List Char → Option (String × List Char)
  | '"' :: rest => readBasic? (rest.length + 1) [] rest
  | '\'' :: rest => readLiteral? rest
  | _ => none

/-- Reads a string. -/
def readString? : List Char → Option (String × List Char)
  | '"' :: '"' :: '"' :: rest => readLong? '"' true (rest.length + 1) [] (dropFirstNewline rest)
  | '\'' :: '\'' :: '\'' :: rest =>
    readLong? '\'' false (rest.length + 1) [] (dropFirstNewline rest)
  | text => readShortString? text

/-! ## Keys -/

/-- A character of bare keys. -/
def isBare (c : Char) : Bool := c.isAlphanum || c == '_' || c == '-'

/-- Reads one part of a key. -/
def readKeyPart? (text : List Char) : Option (String × List Char) :=
  match text.takeWhile isBare with
  | [] => readShortString? text
  | word => some (String.ofList word, text.dropWhile isBare)

/-- Reads a key, and the blanks after it. The fuel bounds the number of parts. -/
def readKey? : (fuel : Nat) → List Char → Option (List String × List Char)
  | 0, _ => none
  | fuel + 1, text =>
    match readKeyPart? text with
    | none => none
    | some (part, rest) =>
      match skipBlanks rest with
      | '.' :: rest =>
        (readKey? fuel (skipBlanks rest)).map fun (parts, rest) => (part :: parts, rest)
      | rest => some ([part], rest)

end WrapperGen.Toml
