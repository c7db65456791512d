import WrapperGen.Json.Value
/-!
# JSON tokens

The text of a JSON value is a sequence of tokens, with blanks allowed between them. `Token.chars`
writes a token and `Token.read?` reads the one that a text starts with; `lex?` reads them all.
-/

namespace WrapperGen.Json

/-- A token of JSON text. -/
inductive Token where
  | openArray
  | closeArray
  | openObject
  | closeObject
  | comma
  | colon
  | null
  | bool (b : Bool)
  | number (n : Number)
  | string (s : String)
  /-- A string that has no text. -/
  | textless
  deriving DecidableEq, Repr, Inhabited

namespace Token

/-! ## Writing -/

/-- A hexadecimal digit. -/
def hexDigit (n : Nat) : Char := Char.ofNat (if n < 10 then 0x30 + n else 0x57 + n)

/-- A character inside a string. Quotes, backslashes and control characters are escaped. -/
def escapeChar (c : Char) : List Char :=
  if c = '"' then ['\\', '"']
  else if c = '\\' then ['\\', '\\']
  else if c = '\n' then ['\\', 'n']
  else if c = '\r' then ['\\', 'r']
  else if c = '\t' then ['\\', 't']
  else if c = '\x08' then ['\\', 'b']
  else if c = '\x0c' then ['\\', 'f']
  else if c.toNat < 0x20 then
    ['\\', 'u', '0', '0', hexDigit (c.toNat / 16), hexDigit (c.toNat % 16)]
  else [c]

/-- A string between quotes. -/
def quote (s : String) : List Char := '"' :: s.toList.flatMap escapeChar ++ ['"']

/-- A string that has no text. -/
def textlessChars : List Char := ['"', '\\', 'u', 'd', '8', '0', '0', '"']

/-- The text of a token. -/
def chars : Token → List Char
  | openArray => ['[']
  | closeArray => [']']
  | openObject => ['\x7b']
  | closeObject => ['\x7d']
  | comma => [',']
  | colon => [':']
  | null => ['n', 'u', 'l', 'l']
  | bool true => ['t', 'r', 'u', 'e']
  | bool false => ['f', 'a', 'l', 's', 'e']
  | number n => n.chars
  | string s => quote s
  | textless => textlessChars

/-! ## Reading -/

/-- Blanks between tokens. -/
def isBlank (c : Char) : Bool := c == ' ' || c == '\t' || c == '\n' || c == '\r'

/-- The value of a hexadecimal digit. -/
def hexValue? (c : Char) : Option Nat :=
  let n := c.toNat
  if 0x30 ≤ n ∧ n ≤ 0x39 then some (n - 0x30)
  else if 0x61 ≤ n ∧ n ≤ 0x66 then some (n - 0x57)
  else if 0x41 ≤ n ∧ n ≤ 0x46 then some (n - 0x37)
  else none

/-- The value of four hexadecimal digits. -/
def hex4? (a b c d : Char) : Option Nat := do
  let a ← hexValue? a
  let b ← hexValue? b
  let c ← hexValue? c
  let d ← hexValue? d
  return ((a * 16 + b) * 16 + c) * 16 + d

/-- The character of a code that is no half of a surrogate pair. -/
def charOfUnit? (n : Nat) : Option Char :=
  if 0xD800 ≤ n ∧ n < 0xE000 then none else some (Char.ofNat n)

/-- The character of a surrogate pair. -/
def charOfPair? (high low : Nat) : Option Char :=
  if 0xD800 ≤ high ∧ high < 0xDC00 ∧ 0xDC00 ≤ low ∧ low < 0xE000 then
    some (Char.ofNat (0x10000 + (high - 0xD800) * 0x400 + (low - 0xDC00)))
  else none

/-- The character that one letter after a backslash stands for. -/
def unescape? (c : Char) : Option Char :=
  if c = '"' ∨ c = '\\' ∨ c = '/' then some c
  else if c = 'n' then some '\n'
  else if c = 'r' then some '\r'
  else if c = 't' then some '\t'
  else if c = 'b' then some '\x08'
  else if c = 'f' then some '\x0c'
  else none

/-- The token of what was read of a string, last character first, if it has a text. -/
def ofRead : Option (List Char) → Token
  | some done => string (String.ofList done.reverse)
  | none => textless

/-- What was read of a string, and one more character. -/
def push (done : Option (List Char)) (c : Char) : Option (List Char) := done.map (c :: ·)

/-- Reads a string up to its closing quote; `done` holds what was read, last character first, and
nothing once half of a surrogate pair was escaped without the other. A control character has to be
escaped. -/
def readString? (done : Option (List Char)) : List Char → Option (Token × List Char)
  | [] => none
  | '"' :: rest => some (ofRead done, rest)
  | '\\' :: 'u' :: a :: b :: c :: d :: rest =>
    match hex4? a b c d with
    | none => none
    | some n =>
      match charOfUnit? n with
      | some x => readString? (push done x) rest
      | none =>
        match rest with
        | '\\' :: 'u' :: a :: b :: c :: d :: more =>
          match (hex4? a b c d).bind (charOfPair? n) with
          | some x => readString? (push done x) more
          | none => readString? none ('\\' :: 'u' :: a :: b :: c :: d :: more)
        | rest => readString? none rest
  | '\\' :: c :: rest =>
    match unescape? c with
    | none => none
    | some x => readString? (push done x) rest
  | c :: rest => if c = '\\' ∨ c.toNat < 0x20 then none else readString? (push done c) rest

/-- The number that a row of digits writes. -/
def ofDigits (digits : List Char) : Nat := digits.foldl (fun n d => n * 10 + (d.toNat - 0x30)) 0

/-- A row of digits at the head of a text, and what follows. There has to be one. -/
def readDigits? (text : List Char) : Option (List Char × List Char) :=
  match text.takeWhile Char.isDigit with
  | [] => none
  | digits => some (digits, text.dropWhile Char.isDigit)

/-- The digits after a point, if there is one. -/
def readFraction? : List Char → Option (List Char × List Char)
  | '.' :: rest => readDigits? rest
  | text => some ([], text)

/-- The exponent, if there is one. -/
def readExponent? : List Char → Option (Option Int × List Char)
  | [] => some (none, [])
  | c :: rest =>
    if c = 'e' ∨ c = 'E' then
      match rest with
      | '-' :: rest => (readDigits? rest).map fun (ds, rest) => (some (-(ofDigits ds : Int)), rest)
      | '+' :: rest => (readDigits? rest).map fun (ds, rest) => (some (ofDigits ds : Int), rest)
      | rest => (readDigits? rest).map fun (ds, rest) => (some (ofDigits ds : Int), rest)
    else some (none, c :: rest)

/-- The least number that is kept as an integer. -/
def leastInteger : Int := -9223372036854775808

/-- The greatest number that is kept as an integer. -/
def greatestInteger : Int := 18446744073709551615

/-- The number of a sign, the digits before and after the point, and an exponent. -/
def ofParts (negative : Bool) (whole fraction : List Char) (exponent : Option Int) : Number :=
  let n := ofDigits whole
  let signed : Int := if negative then -n else n
  if fraction.isEmpty ∧ exponent = none ∧ ¬(negative ∧ n = 0) ∧ leastInteger ≤ signed ∧
      signed ≤ greatestInteger then .integer signed
  else .decimal negative (ofDigits (whole ++ fraction)) (exponent.getD 0 - fraction.length)

/-- A number without its sign. No zero stands before other digits. -/
def readUnsigned? (negative : Bool) (text : List Char) : Option (Number × List Char) := do
  let (whole, rest) ← readDigits? text
  if whole.head? = some '0' ∧ whole.length ≠ 1 then none
  let (fraction, rest) ← readFraction? rest
  let (exponent, rest) ← readExponent? rest
  return (ofParts negative whole fraction exponent, rest)

/-- The token at the head of a text that does not start with a blank, and what follows it. -/
def read? : List Char → Option (Token × List Char)
  | '[' :: rest => some (openArray, rest)
  | ']' :: rest => some (closeArray, rest)
  | '\x7b' :: rest => some (openObject, rest)
  | '\x7d' :: rest => some (closeObject, rest)
  | ',' :: rest => some (comma, rest)
  | ':' :: rest => some (colon, rest)
  | 'n' :: 'u' :: 'l' :: 'l' :: rest => some (null, rest)
  | 't' :: 'r' :: 'u' :: 'e' :: rest => some (bool true, rest)
  | 'f' :: 'a' :: 'l' :: 's' :: 'e' :: rest => some (bool false, rest)
  | '"' :: rest => readString? (some []) rest
  | '-' :: rest => (readUnsigned? true rest).map fun (n, rest) => (number n, rest)
  | text => (readUnsigned? false text).map fun (n, rest) => (number n, rest)

/-- Reads all tokens of a text; `done` holds those read before, last one first. The fuel is a bound
on the number of tokens. -/
def lexFrom? : (fuel : Nat) → (done : List Token) → List Char → Option (List Token)
  | 0, _, _ => none
  | fuel + 1, done, text =>
    match text.dropWhile isBlank with
    | [] => some done.reverse
    | c :: rest =>
      match read? (c :: rest) with
      | none => none
      | some (token, rest) => lexFrom? fuel (token :: done) rest

/-- The tokens of a text. -/
def lex? (text : List Char) : Option (List Token) := lexFrom? (text.length + 1) [] text

end Token

end WrapperGen.Json
