import WrapperGen.Template.Engine
/-!
# The template of a function

A PowerShell function takes its parameters in a block of attributes, types and names, and runs one
line for each statement. The template asks for `name`, `output_type`, `parameters` (each with
`attribute`, `type_name` and `name`) and `body`; a type that is null leaves no line.
-/

namespace WrapperGen.PowerShell

open Template

/-- The name under which the template is registered from the start. -/
def functionTemplateName : String := "powershell/function"

/-- A tag between its braces. -/
def tag (content : String) : String := "\x7b\x7b" ++ content ++ "\x7d\x7d"

/-- The lines of the template. -/
def functionTemplateLines : List String :=
  ["function " ++ tag "name" ++ " \x7b",
    "    [CmdletBinding()]",
    tag "#if output_type",
    "    [OutputType([" ++ tag "output_type" ++ "])]",
    tag "/if",
    "    param(",
    tag "#each parameters",
    "        " ++ tag "attribute",
    tag "#if type_name",
    "        [" ++ tag "type_name" ++ "]",
    tag "/if",
    "        $" ++ tag "name" ++ tag "#unless @last" ++ "," ++ tag "/unless",
    tag "/each",
    "    )",
    "",
    tag "#each body",
    "    " ++ tag "this",
    tag "/each",
    "\x7d"]

/-- The text of the template. -/
def functionTemplate : String := String.join (functionTemplateLines.map (· ++ "\n"))

/-- The templates that are there from the start. -/
def templates : TemplateSet := .ofNodes? functionTemplateName (Node.ofText? functionTemplate)

end WrapperGen.PowerShell
