import WrapperGen.Json.Writer
import WrapperGen.Text.Blank
import WrapperGen.Text.Infix
/-!
# Outlines

An outline shows a JSON value for people. A member is a line `key: value` and an item a line
`- value`; an object or array that is not empty goes below the line of its key or dash, one level
further in. On a terminal keys and values are coloured.
-/

namespace WrapperGen.Console

open Json (Value)

/-! ## Colours -/

/-- What a text in an outline is. -/
inductive Role where
  | key
  /-- Null, or something empty. -/
  | nothing
  | bool
  | number
  | string
  deriving DecidableEq, Repr, Inhabited

/-- The escape character of terminals. -/
def escape : Char := '\x1b'

/-- The sequence that sets a style. -/
def styleCode (code : String) : List Char := escape :: '[' :: code.toList ++ ['m']

/-- The sequence that ends every style. -/
def resetCode : List Char := styleCode "0"

/-- The style of a text. -/
def Role.code : Role → List Char
  | key => styleCode "1;34"
  | nothing => styleCode "2"
  | bool => styleCode "33"
  | number => styleCode "36"
  | string => styleCode "32"

/-- The text with the style set again after everything in it that ends styles. -/
def restyle (code : List Char) : (fuel : Nat) → List Char → List Char
  | 0, text => text
  | _ + 1, [] => []
  | fuel + 1, c :: text =>
    match Text.dropWord? resetCode (c :: text) with
    | some rest => resetCode ++ code ++ restyle code fuel rest
    | none => c :: restyle code fuel text

/-- A text in the style of its role, if colours are on. -/
def paint (colored : Bool) (role : Role) (text : List Char) : List Char :=
  if colored then role.code ++ restyle role.code text.length text ++ resetCode else text

/-! ## Lines -/

/-- The blanks before a line. -/
def indentation (level : Nat) : List Char := List.replicate (2 * level) ' '

/-- A value that takes lines of its own. -/
def isNested : Value → Bool
  | .object members => !members.isEmpty
  | .array items => !items.isEmpty
  | _ => false

/-- The text of a value on the line of its key or dash. -/
def leafText (colored : Bool) : Value → List Char
  | .null => paint colored .nothing ['n', 'o', 'n', 'e']
  | .bool b => paint colored .bool (Json.Token.chars (.bool b))
  | .number n => paint colored .number n.chars
  | .string s => paint colored .string s.toList
  | .textless => paint colored .string []
  | .array _ => paint colored .nothing ['[', ']']
  | .object _ => paint colored .nothing ['\x7b', '\x7d']

/-- A line for a leaf after its key or dash, and nothing after it otherwise. -/
def headLine (colored : Bool) (v : Value) (head : List Char) : List Char :=
  if isNested v then head else head ++ ' ' :: leafText colored v

mutual

/-- The lines of an object or array at a level; any other value has one line. -/
def blockLines (colored : Bool) (level : Nat) : Value → List (List Char)
  | .object members => memberLines colored level members
  | .array items => itemLines colored level items
  | .null => [indentation level ++ leafText colored .null]
  | .bool b => [indentation level ++ leafText colored (.bool b)]
  | .number n => [indentation level ++ leafText colored (.number n)]
  | .string s => [indentation level ++ leafText colored (.string s)]
  | .textless => [indentation level ++ leafText colored .textless]

/-- The lines of members. -/
def memberLines (colored : Bool) (level : Nat) : List (String × Value) → List (List Char)
  | [] => []
  | (name, v) :: ms =>
    headLine colored v (indentation level ++ paint colored .key name.toList ++ [':']) ::
      (if isNested v then blockLines colored (level + 1) v else []) ++
      memberLines colored level ms

/-- The lines of items. -/
def itemLines (colored : Bool) (level : Nat) : List Value → List (List Char)
  | [] => []
  | v :: vs =>
    headLine colored v (indentation level ++ ['-']) ::
      (if isNested v then blockLines colored (level + 1) v else []) ++
      itemLines colored level vs

end

/-- The outline of a value with its members sorted, without blanks at its end. -/
def outline (colored : Bool) (v : Value) : String :=
  String.ofList (Text.trimEnd ((blockLines colored 0 v.sorted).flatMap (· ++ ['\n'])))

end WrapperGen.Console
