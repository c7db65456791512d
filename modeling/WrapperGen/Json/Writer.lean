import WrapperGen.Json.Token
/-!
# Writing JSON

A value has a compact text, on one line without blanks, and an indented one, with two blanks for
each level and one item or member on a line.
-/

namespace WrapperGen.Json.Value

/-! ## Compact text -/

mutual

/-- The tokens of a value. -/
def tokens : Value → List Token
  | null => [.null]
  | bool b => [.bool b]
  | number n => [.number n]
  | string s => [.string s]
  | textless => [.textless]
  | array [] => [.openArray, .closeArray]
  | array (v :: vs) => .openArray :: tokens v ++ moreItems vs ++ [.closeArray]
  | object [] => [.openObject, .closeObject]
  | object ((n, v) :: ms) =>
    .openObject :: .string n :: .colon :: tokens v ++ moreMembers ms ++ [.closeObject]

/-- The tokens of the items after the first. -/
def moreItems : List Value → List Token
  | [] => []
  | v :: vs => .comma :: tokens v ++ moreItems vs

/-- The tokens of the members after the first. -/
def moreMembers : List (String × Value) → List Token
  | [] => []
  | (n, v) :: ms => .comma :: .string n :: .colon :: tokens v ++ moreMembers ms

end

/-- The compact text. -/
def compact (v : Value) : String := String.ofList (v.tokens.flatMap Token.chars)

/-! ## Indented text -/

/-- The start of a line at a level. -/
def newline (level : Nat) : List Char := '\n' :: List.replicate (2 * level) ' '

mutual

/-- The lines of a value at a level. -/
def indentedChars (level : Nat) : Value → List Char
  | array [] => ['[', ']']
  | array (v :: vs) =>
    '[' :: newline (level + 1) ++ indentedChars (level + 1) v ++ indentedItems level vs ++
      newline level ++ [']']
  | object [] => ['\x7b', '\x7d']
  | object ((n, v) :: ms) =>
    '\x7b' :: newline (level + 1) ++ Token.quote n ++ [':', ' '] ++ indentedChars (level + 1) v ++
      indentedMembers level ms ++ newline level ++ ['\x7d']
  | null => Token.chars .null
  | bool b => Token.chars (.bool b)
  | number n => Token.chars (.number n)
  | string s => Token.chars (.string s)
  | textless => Token.chars .textless

/-- The lines of the items after the first. -/
def indentedItems (level : Nat) : List Value → List Char
  | [] => []
  | v :: vs =>
    ',' :: newline (level + 1) ++ indentedChars (level + 1) v ++ indentedItems level vs

/-- The lines of the members after the first. -/
def indentedMembers (level : Nat) : List (String × Value) → List Char
  | [] => []
  | (n, v) :: ms =>
    ',' :: newline (level + 1) ++ Token.quote n ++ [':', ' '] ++ indentedChars (level + 1) v ++
      indentedMembers level ms

end

/-- The indented text. -/
def indented (v : Value) : String := String.ofList (indentedChars 0 v)

end WrapperGen.Json.Value
