import WrapperGen.Template.Helper
import WrapperGen.Template.Node
/-!
# Rendering

A template is rendered with a JSON value, its context. Every loop opens a scope with its item as
value and with marks that say where in the loop it is. A value that is not there is an error where
a tag writes it; a condition takes it as false.

A helper's name is never the name of a value: where a tag holds such a name and nothing else, it
calls the helper.
-/

namespace WrapperGen.Template

open Json (Value)

/-- A scope: a value, the marks of the loop that opened it, and the names that its block gave. -/
structure Scope where
  value : Value
  marks : List (String × Value)
  names : List (String × Value)
  deriving Repr, Inhabited

/-- What names mean at some place of a template. -/
structure Context where
  root : Value
  innermost : Scope
  /-- The scopes around the innermost, from the inside out. -/
  outer : List Scope
  deriving Repr, Inhabited

namespace Context

/-- A context with one scope. -/
def ofValue (v : Value) : Context := ⟨v, ⟨v, [], []⟩, []⟩

/-- The scopes from the inside out. -/
def scopes (c : Context) : List Scope := c.innermost :: c.outer

/-- The context inside a new scope. -/
def enter (c : Context) (s : Scope) : Context := ⟨c.root, s, c.scopes⟩

/-- The value that a block gave a name. -/
def named? (c : Context) (name : String) : Option Value := c.scopes.findSome? (·.names.lookup name)

end Context

/-! ## Values -/

/-- The index that a name writes: digits, perhaps after a plus, of a number below 2⁶⁴. -/
def indexOf? (name : String) : Option Nat :=
  let digits := match name.toList with
    | '+' :: digits => digits
    | digits => digits
  if digits.isEmpty ∨ !digits.all Char.isDigit then none
  else
    let i := Json.Token.ofDigits digits
    if i < Nat.pow 2 64 then some i else none

/-- The member of a name, or the item at an index; an error when a list is asked for a name. -/
def memberOf (name : String) : Value → Except Unit (Option Value)
  | .array items =>
    match indexOf? name with
    | some i => .ok items[i]?
    | none => .error ()
  | .object members => .ok ((Value.object members).member? name)
  | _ => .ok none

/-- Follows names from a value. -/
def follow : List String → Value → Except Unit (Option Value)
  | [], v => .ok (some v)
  | name :: names, v => do
    match ← memberOf name v with
    | none => return none
    | some v => follow names v

namespace Context

/-- Follows names from a scope. A name that a block gave comes first, and a scope outside of all is
the innermost. -/
def followFrom (c : Context) (up : Nat) (names : List String) : Except Unit (Option Value) :=
  match names.head?.bind c.named? with
  | some v => follow names.tail v
  | none => follow names ((c.scopes[up]?).getD c.innermost).value

/-- The value of a path. -/
def find (c : Context) (p : Path) : Except Unit (Option Value) :=
  match p.origin with
  | .root => follow p.names c.root
  | .scope up => c.followFrom up p.names
  | .marks up =>
    match c.scopes[up]?, p.names with
    | some s, name :: _ => .ok (s.marks.lookup name)
    | _, _ => .ok none

mutual

/-- The value of an argument. -/
def evaluate (c : Context) : Argument → Except Unit (Option Value)
  | .path p => c.find p
  | .literal v => .ok (some v)
  | .call name arguments settings => do
    let s : Supply := ⟨← evaluateAll c arguments, ← evaluateSettings c settings⟩
    match (Helper.ofName? name).bind (·.value? s) with
    | some v => return some v
    | none => throw ()

/-- The values of arguments. -/
def evaluateAll (c : Context) : List Argument → Except Unit (List (Option Value))
  | [] => .ok []
  | a :: as => do
    let v ← evaluate c a
    let vs ← evaluateAll c as
    return v :: vs

/-- The values of settings. -/
def evaluateSettings (c : Context) :
    List (String × Argument) → Except Unit (List (String × Option Value))
  | [] => .ok []
  | (name, a) :: rest => do
    let v ← evaluate c a
    let vs ← evaluateSettings c rest
    return (name, v) :: vs

end

/-- The values of inputs. -/
def supply (c : Context) (inputs : Inputs) : Except Unit Supply := do
  let arguments ← c.evaluateAll inputs.arguments
  let settings ← c.evaluateSettings inputs.settings
  return ⟨arguments, settings⟩

/-- The name that an argument would be called by: a path as it is written, and the text of any other
value. -/
def nameOf (c : Context) : Argument → Except Unit String
  | .path p => .ok p.text
  | a => do return ((← c.evaluate a).map textOf).getD ""

/-- The text of an argument that a tag writes. -/
def writtenText (c : Context) (a : Argument) : Except Unit String := do
  match Helper.ofName? (← c.nameOf a) with
  | some h => h.text .empty
  | none =>
    match ← c.evaluate a with
    | some v => return textOf v
    | none => throw ()

end Context

/-! ## Loops -/

/-- The scopes of a loop over values, from an index on. A member of an object has its name as key,
any other value its index. -/
def loopScopes (binds : List String) (count : Nat) : Nat → List (Option String × Value) → List Scope
  | _, [] => []
  | i, (name, v) :: rest =>
    let key : Value := (name.map Value.string).getD (.ofNat i)
    ⟨v, (name.toList.map fun n => ("key", .string n)) ++ [("first", .bool (i == 0)),
        ("last", .bool (i + 1 == count)), ("index", .ofNat i)], binds.zip [v, key]⟩ ::
      loopScopes binds count (i + 1) rest

/-- The scopes that a loop over a value opens one after another, if it can be looped over. -/
def Scope.ofLoop? (binds : List String) : Value → Option (List Scope)
  | .array items => some (loopScopes binds items.length 0 (items.map fun v => (none, v)))
  | .object members =>
    some (loopScopes binds members.length 0 (members.map fun m => (some m.1, m.2)))
  | _ => none

/-- The scope of a value that a block makes the innermost. A single name means the value. -/
def Scope.ofValue (binds : List String) (v : Value) : Scope :=
  ⟨v, [], if binds.length = 1 then binds.zip [v] else []⟩

/-! ## Nodes -/

mutual

/-- The text of a node. -/
def render (c : Context) : Node → Except Unit String
  | .text s => .ok s
  | .value a => c.writtenText a
  | .call name inputs => do
    let s ← c.supply inputs
    match Helper.ofName? name with
    | none => throw ()
    | some h => h.text s
  | .block head body otherwise => do
    let s ← c.supply head.inputs
    match Helper.ofName? head.name, s.first? with
    | some (.conditional positive), some v =>
      if s.holds v = positive then renderAll c body else renderBranch c otherwise
    | some .each, some v =>
      match Scope.ofLoop? head.binds v with
      | some [] => renderBranch c otherwise
      | some scopes => do
        let texts ← scopes.mapM fun s => renderAll (c.enter s) body
        return String.join texts
      | none => if otherwise.isSome then renderBranch c otherwise else throw ()
    | some .within, some v =>
      if isTrue v then renderAll (c.enter (.ofValue head.binds v)) body
      else if otherwise.isSome then renderBranch c otherwise
      else throw ()
    | some .raw, _ => renderAll c body
    | some h, _ => h.text s
    | none, _ => throw ()

/-- The text of nodes. -/
def renderAll (c : Context) : List Node → Except Unit String
  | [] => .ok ""
  | n :: ns => do
    let first ← render c n
    let others ← renderAll c ns
    return first ++ others

/-- The text of the other branch of a block. -/
def renderBranch (c : Context) : Option (List Node) → Except Unit String
  | none => .ok ""
  | some nodes => renderAll c nodes

end

end WrapperGen.Template
