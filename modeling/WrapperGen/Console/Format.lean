import WrapperGen.Console.Outline
import WrapperGen.Model.Error
/-!
# Output formats

What a command found is printed as indented JSON, as JSON on one line, or as an outline.
-/

namespace WrapperGen.Console

/-- A format of printed results. -/
inductive OutputFormat where
  /-- Indented JSON. -/
  | json
  /-- JSON on one line. -/
  | text
  /-- An outline. -/
  | pretty
  deriving DecidableEq, Repr, Inhabited

namespace OutputFormat

/-- The format that is used unless another is asked for. -/
def default : OutputFormat := pretty

def all : List OutputFormat := [json, text, pretty]

/-- The word for a format. -/
def word : OutputFormat → String
  | json => "json"
  | text => "text"
  | pretty => "pretty"

/-- The format of a word, up to the case of ASCII letters. -/
def ofWord (s : String) : Except Error OutputFormat :=
  match all.find? fun format => format.word.toList == s.toList.map Char.toLower with
  | some format => .ok format
  | none =>
    .error (.invalidArgument
      ("invalid output format: '" ++ s ++ "' (expected: json, text, or pretty)"))

/-- The text of a value in a format. -/
def render (format : OutputFormat) (colored : Bool) (v : Json.Value) : String :=
  match format with
  | json => v.indented
  | text => v.compact
  | pretty => outline colored v

end OutputFormat

/-- How a command ended, as a number. -/
structure ExitCode where
  value : Int
  deriving DecidableEq, Repr, Inhabited

namespace ExitCode

/-- All went well. -/
def success : ExitCode := ⟨0⟩

/-- The command could not do its work. -/
def error : ExitCode := ⟨1⟩

/-- The command could not be understood. -/
def invalidInput : ExitCode := ⟨2⟩

/-- Files were written, but some endpoints or types failed. -/
def partialFailure : ExitCode := ⟨3⟩

def isSuccess (c : ExitCode) : Bool := c.value == 0

end ExitCode

end WrapperGen.Console
