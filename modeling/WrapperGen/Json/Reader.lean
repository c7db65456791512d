import WrapperGen.Json.Token
/-!
# Reading JSON

The reader goes through the tokens of a text once. It keeps the arrays and objects that are not
closed yet, innermost first, and what may come next. Nothing bounds how deep they nest.
-/

namespace WrapperGen.Json

/-- A member that has been read. Its name may have no text. -/
abbrev ReadMember := Option String × Value

/-- An array or object that is waiting for a value. What it has so far stands last first. -/
inductive Frame where
  | array (done : List Value)
  | object (done : List ReadMember) (name : Option String)
  deriving Repr, Inhabited

/-- What has been read and what may follow. -/
inductive Place where
  /-- A value has to follow. -/
  | value
  /-- An array was opened: a value or its end. -/
  | firstItem
  /-- An object was opened: a name or its end. -/
  | firstName
  /-- An object goes on: a name. -/
  | name (done : List ReadMember)
  /-- A name was read: a colon. -/
  | colon (done : List ReadMember) (name : Option String)
  /-- A value was read: what goes on or ends the innermost frame. -/
  | after (v : Value)
  deriving Repr, Inhabited

/-- The reader between two tokens. -/
structure Reader where
  place : Place
  frames : List Frame
  deriving Repr, Inhabited

/-- The member, if its name has a text. -/
def ReadMember.toMember? : ReadMember → Option (String × Value)
  | (some name, v) => some (name, v)
  | (none, _) => none

/-- The object of members that were read, last one first. -/
def Value.ofRead (done : List ReadMember) : Value :=
  match done.reverse.mapM ReadMember.toMember? with
  | some members => .object members
  | none => .textless

namespace Reader

/-- Before the first token. -/
def start : Reader := ⟨.value, []⟩

/-- The first token of a value. -/
def openValue? (frames : List Frame) : Token → Option Reader
  | .null => some ⟨.after .null, frames⟩
  | .bool b => some ⟨.after (.bool b), frames⟩
  | .number n => some ⟨.after (.number n), frames⟩
  | .string s => some ⟨.after (.string s), frames⟩
  | .textless => some ⟨.after .textless, frames⟩
  | .openArray => some ⟨.firstItem, frames⟩
  | .openObject => some ⟨.firstName, frames⟩
  | .closeArray | .closeObject | .comma | .colon => none

/-- One token. -/
def step? : Reader → Token → Option Reader
  | ⟨.value, frames⟩, t => openValue? frames t
  | ⟨.firstItem, frames⟩, .closeArray => some ⟨.after (.array []), frames⟩
  | ⟨.firstItem, frames⟩, t => openValue? (.array [] :: frames) t
  | ⟨.firstName, frames⟩, .closeObject => some ⟨.after (.object []), frames⟩
  | ⟨.firstName, frames⟩, .string s => some ⟨.colon [] (some s), frames⟩
  | ⟨.firstName, frames⟩, .textless => some ⟨.colon [] none, frames⟩
  | ⟨.name done, frames⟩, .string s => some ⟨.colon done (some s), frames⟩
  | ⟨.name done, frames⟩, .textless => some ⟨.colon done none, frames⟩
  | ⟨.colon done name, frames⟩, .colon => some ⟨.value, .object done name :: frames⟩
  | ⟨.after v, .array done :: frames⟩, .comma => some ⟨.value, .array (v :: done) :: frames⟩
  | ⟨.after v, .array done :: frames⟩, .closeArray =>
    some ⟨.after (.array (v :: done).reverse), frames⟩
  | ⟨.after v, .object done name :: frames⟩, .comma => some ⟨.name ((name, v) :: done), frames⟩
  | ⟨.after v, .object done name :: frames⟩, .closeObject =>
    some ⟨.after (.ofRead ((name, v) :: done)), frames⟩
  | _, _ => none

/-- A row of tokens. -/
def run? : Reader → List Token → Option Reader
  | r, [] => some r
  | r, t :: ts => (r.step? t).bind (run? · ts)

/-- The value that has been read, when every frame is closed. -/
def result? : Reader → Option Value
  | ⟨.after v, []⟩ => some v
  | _ => none

end Reader

/-- The value that a row of tokens writes. -/
def Value.ofTokens? (tokens : List Token) : Option Value :=
  (Reader.start.run? tokens).bind (·.result?)

/-- The value that a text writes. -/
def Value.read? (text : String) : Option Value := (Token.lex? text.toList).bind Value.ofTokens?

end WrapperGen.Json
