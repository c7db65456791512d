import WrapperGen.Generation.FunctionSpec
import WrapperGen.PowerShell.Template
import WrapperGen.Text.Blank
/-!
# PowerShell functions

The text of an abstract function as a PowerShell function. Variables get their mark here, and every
statement becomes one line.
-/

namespace WrapperGen.PowerShell

open Json (Value)

/-- The ending of the names of script files. -/
def fileExtension : String := "ps1"

/-- The use of a variable. -/
def reference (name : String) : String := "$" ++ name

/-- The attribute that says where a parameter stands and whether it has to be supplied. -/
def parameterAttribute (p : ParameterSpec) : String :=
  if p.required then "[Parameter(Mandatory = $true, Position = " ++ toString p.position ++ ")]"
  else "[Parameter(Position = " ++ toString p.position ++ ")]"

/-- The line of a statement. -/
def line : Statement → String
  | .construct object typeName .defaultConstructor =>
    reference object ++ " = New-Object -TypeName \"" ++ typeName ++ "\""
  | .construct object typeName (.factory method) =>
    reference object ++ " = [" ++ typeName ++ "]::" ++ method ++ "()"
  | .assign parameter object property =>
    "if ($PSBoundParameters.ContainsKey('" ++ parameter ++ "')) \x7b " ++ reference object ++ "." ++
      property ++ " = " ++ reference parameter ++ " \x7d"
  | .invoke target method arguments =>
    reference target ++ "." ++ method ++ "(" ++ ", ".intercalate (arguments.map reference) ++ ")"
  | .emit object => reference object

/-- What the template is told of a parameter. -/
def parameterContext (p : ParameterSpec) : Value :=
  .object
    [("attribute", .string (parameterAttribute p)), ("name", .string p.name),
      ("type_name", .ofString? p.typeName)]

/-- What the template is told of a function. -/
def functionContext (f : FunctionSpec) : Value :=
  .object
    [("body", .array (f.body.map fun s => .string (line s))), ("name", .string f.name),
      ("output_type", .ofString? f.outputType),
      ("parameters", .array (f.parameters.map parameterContext))]

/-- The text of a function, without blanks at its end. -/
def emit (f : FunctionSpec) : Except Error String := do
  let text ← templates.render functionTemplateName (functionContext f)
  return String.ofList (Text.trimEnd text.toList)

end WrapperGen.PowerShell
