/-!
# Parts of a text

`hasInfix part text` looks for a part anywhere, and `dropWord? word text` takes a word off the head.
-/

namespace WrapperGen.Text

/-- The part stands somewhere in the text. -/
def hasInfix (part : List Char) : List Char → Bool
  | [] => part.isEmpty
  | c :: text => part.isPrefixOf (c :: text) || hasInfix part text

/-- What follows a word at the head of the text. -/
def dropWord? : (word text : List Char) → Option (List Char)
  | [], text => some text
  | _ :: _, [] => none
  | w :: word, c :: text => if w = c then dropWord? word text else none

end WrapperGen.Text
