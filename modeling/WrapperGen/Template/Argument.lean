import WrapperGen.Template.Literal
/-!
# Arguments

What stands behind the name in a tag: values, and settings, which are values with a name and a sign
before them. A value is a path, a literal, or a call of a helper in parentheses.

The words `as` and `else` are no values where no character of a name comes next.
-/

namespace WrapperGen.Template

/-- A value that a tag asks for. -/
inductive Argument where
  | path (p : Path)
  | literal (v : Json.Value)
  /-- What a helper makes of arguments and settings. -/
  | call (name : String) (arguments : List Argument) (settings : List (String × Argument))
  deriving Repr, Inhabited

/-- What stands behind the name in a tag. -/
structure Inputs where
  arguments : List Argument
  settings : List (String × Argument)
  deriving Repr, Inhabited

namespace Inputs

def empty : Inputs := ⟨[], []⟩

def isEmpty (i : Inputs) : Bool := i.arguments.isEmpty && i.settings.isEmpty

/-- The inputs with one before them, which may have a name. -/
def cons (i : Inputs) : Option String × Argument → Inputs
  | (none, a) => { i with arguments := a :: i.arguments }
  | (some name, a) => { i with settings := (name, a) :: i.settings }

end Inputs

/-- A word that is kept for tags. -/
def keyword : Scan Unit := do
  Scan.word ['a', 's'] <|> Scan.word ['e', 'l', 's', 'e']
  Scan.gaps
  Scan.refuse (Scan.row isNameChar)

/-- A name and the sign after it. -/
def settingName : Scan String := do
  let name ← identifier
  Scan.mark ['=']
  return name

mutual

/-- A value. The fuel bounds how deep calls nest and how much they hold. -/
def Argument.scan : (fuel : Nat) → Scan Argument
  | 0 => failure
  | fuel + 1 => do
    Scan.gaps
    Scan.refuse keyword
    if ← Scan.ahead Literal.chars then return .literal (← Literal.scan)
    else (.path <$> Path.scan) <|> Argument.scanCall fuel

/-- A call in parentheses. -/
def Argument.scanCall : (fuel : Nat) → Scan Argument
  | 0 => failure
  | fuel + 1 => do
    Scan.word ['(']
    Scan.gaps
    let call ← (do
      let name ← identifier
      let inputs ← Inputs.scan fuel
      guard !inputs.isEmpty
      return Argument.call name inputs.arguments inputs.settings) <|>
        (fun (p : Path) => Argument.call p.text [] []) <$> Path.scan
    Scan.mark [')']
    return call

/-- Values and settings, as many as there are. -/
def Inputs.scan : (fuel : Nat) → Scan Inputs
  | 0 => return .empty
  | fuel + 1 => (do
      Scan.gaps
      let name ← Scan.optional settingName
      let a ← Argument.scan fuel
      let rest ← Inputs.scan fuel
      return rest.cons (name, a)) <|> return .empty

end

/-- A call in parentheses at the head of a text. -/
def Argument.scanCallHere : Scan Argument := fun text => Argument.scanCall (text.length + 1) text

/-- The values and settings at the head of a text. -/
def Inputs.scanHere : Scan Inputs := fun text => Inputs.scan (text.length + 2) text

end WrapperGen.Template
