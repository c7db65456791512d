import WrapperGen.Template.Argument
/-!
# Helpers

A helper makes something of the values in its tag: it chooses between the branches of a block, goes
through values, or has a value of its own. Here is what helpers make where they have no block; what
they make of one is part of rendering.

1. Null writes nothing, a list its items in brackets, an object the word `[object]`.
2. False, null, zero and whatever is empty are false.
-/

namespace WrapperGen.Template

open Json (Value)

/-- What an order says of two values. -/
inductive Comparison where
  | less
  | atMost
  | greater
  | atLeast
  deriving DecidableEq, Repr, Inhabited

/-- A helper. -/
inductive Helper where
  /-- Takes the body of its block where its value is true, or where it is false. -/
  | conditional (positive : Bool)
  /-- Takes the body of its block once for every item or member. -/
  | each
  /-- Takes the body of its block with its value as the innermost. -/
  | within
  /-- Takes the body of its block as it is. -/
  | raw
  /-- Tells the log, and writes nothing. -/
  | log
  /-- The item or member of a value. -/
  | lookup
  /-- Whether two values are equal, or not. -/
  | equality (positive : Bool)
  | comparison (c : Comparison)
  /-- Whether all values are true. -/
  | all
  /-- Whether one value is true. -/
  | any
  /-- Whether a value is false. -/
  | not
  /-- The number of items, members or bytes. -/
  | length
  deriving DecidableEq, Repr, Inhabited

/-- The names of the helpers. -/
def Helper.table : List (String × Helper) :=
  [("if", conditional true), ("unless", conditional false), ("each", each), ("with", within),
    ("lookup", lookup), ("raw", raw), ("log", log), ("eq", equality true), ("ne", equality false),
    ("gt", comparison .greater), ("gte", comparison .atLeast), ("lt", comparison .less),
    ("lte", comparison .atMost), ("and", all), ("or", any), ("not", not), ("len", length)]

/-- The helper of a name. -/
def Helper.ofName? (name : String) : Option Helper := Helper.table.lookup name

/-! ## Values -/

/-- A number other than zero. -/
def isNonzero : Json.Number → Bool
  | .integer n => n != 0
  | .decimal _ coefficient _ => coefficient != 0

/-- A value that counts as true. -/
def isTrue : Value → Bool
  | .null => false
  | .bool b => b
  | .number n => isNonzero n
  | .string s => !s.isEmpty
  | .textless => false
  | .array items => !items.isEmpty
  | .object members => !members.isEmpty

mutual

/-- The text of a value. -/
def textOf : Value → String
  | .null => ""
  | .bool b => if b then "true" else "false"
  | .number n => String.ofList n.chars
  | .string s => s
  | .textless => ""
  | .array items => "[" ++ ", ".intercalate (textsOf items) ++ "]"
  | .object _ => "[object]"

/-- The texts of values. -/
def textsOf : List Value → List String
  | [] => []
  | v :: vs => textOf v :: textsOf vs

end

/-- The order of two numbers, two texts or two truth values. -/
def compare? : Value → Value → Option Ordering
  | .number (.integer m), .number (.integer n) => some (compare m n)
  | .string s, .string t => some (compare s t)
  | .bool a, .bool b => some (compare a b)
  | _, _ => none

/-- The order is what the comparison asks for. -/
def Comparison.holds : Comparison → Ordering → Bool
  | less, o => o.isLT
  | atMost, o => o.isLE
  | greater, o => o.isGT
  | atLeast, o => o.isGE

/-- The number of items, members or bytes of a value. -/
def lengthOf : Value → Nat
  | .array items => items.length
  | .object members => members.length
  | .string s => s.utf8ByteSize
  | _ => 0

/-- The item at an index, or the member of a name. -/
def entryOf? : Value → Value → Option Value
  | .array items, .number (.integer (.ofNat i)) => items[i]?
  | .object members, .string name => (Value.object members).member? name
  | _, _ => none

/-! ## Helpers without a block -/

/-- The values that a tag has for a helper. One that is not there is none. -/
structure Supply where
  arguments : List (Option Value)
  settings : List (String × Option Value)
  deriving Repr, Inhabited

namespace Supply

def empty : Supply := ⟨[], []⟩

/-- The first value; null where it is not there. -/
def first? (s : Supply) : Option Value := s.arguments.head?.map (·.getD .null)

/-- The value of a setting, the last one of its name. -/
def setting? (s : Supply) (name : String) : Option Value := (s.settings.reverse.lookup name).join

/-- The first value is true. With the setting `includeZero`, zero is true as well. -/
def holds (s : Supply) (v : Value) : Bool :=
  match v, s.setting? "includeZero" with
  | .number _, some (.bool true) => true
  | v, _ => isTrue v

end Supply

/-- What a helper makes of values that are all there. -/
def Helper.ofValues? : Helper → List Value → Option Value
  | lookup, v :: key :: _ => entryOf? v key
  | equality positive, v :: w :: _ => some (.bool ((v == w) == positive))
  | comparison c, v :: w :: _ => some (.bool ((compare? v w).any c.holds))
  | not, v :: _ => some (.bool !isTrue v)
  | length, v :: _ => some (.ofNat (lengthOf v))
  | _, _ => none

/-- What a helper makes of a supply where it has no block. Those that ask for a block make an empty
text; asking for a value that is not there is an error. -/
def Helper.value? (h : Helper) (s : Supply) : Option Value :=
  match h with
  | raw | log => some (.string "")
  | conditional _ | each => s.first?.map fun _ => .string ""
  | within => if s.first?.any isTrue then some (.string "") else none
  | all => some (.bool (s.arguments.all (·.any isTrue)))
  | any => some (.bool (s.arguments.any (·.any isTrue)))
  | lookup => h.ofValues? (s.arguments.map (·.getD .null))
  | equality _ | comparison _ => ((s.arguments.take 2).mapM id).bind h.ofValues?
  | not | length => ((s.arguments.take 1).mapM id).bind h.ofValues?

/-- The text that a helper writes where it has no block. -/
def Helper.text (h : Helper) (s : Supply) : Except Unit String :=
  match h.value? s with
  | some v => .ok (textOf v)
  | none => .error ()

end WrapperGen.Template
