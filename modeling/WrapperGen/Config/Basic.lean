import WrapperGen.Assembly.Discovery
import WrapperGen.Generation.Run
import WrapperGen.Output.Code
/-!
# Configuration

What can be set about a run: names, grouping, which classes are clients, and how files are written.
A configuration is valid when its texts can stand where they are put; `validate` tells the first
key that cannot.
-/

namespace WrapperGen

/-- What happens to a file that is there already. -/
inductive WriteMode where
  /-- Its content is replaced. -/
  | replace
  /-- The new content is added at its end. -/
  | append
  deriving DecidableEq, Repr, Inhabited

/-- The word for a mode. -/
def WriteMode.word : WriteMode → String
  | replace => "replace"
  | append => "append"

/-- The settings of a run. -/
structure Config where
  /-- What the names of all files start with. -/
  modulePrefix : String
  /-- Every client type has a file of its own. -/
  grouped : Bool
  /-- The name of the parameter that takes the client. -/
  handle : String
  /-- What stands between verb and noun. -/
  separator : String
  /-- Parts of the names of attributes that make a property required. -/
  markers : List String
  /-- How the names of client types end, if that matters. -/
  typeSuffix : Option String
  /-- How the namespaces of client types end, if that matters. -/
  spaceSuffix : Option String
  writeMode : WriteMode
  /-- A file is replaced in one step. -/
  atomic : Bool
  deriving DecidableEq, Repr, Inhabited

namespace Config

/-- The settings that are not changed. -/
def default : Config where
  modulePrefix := FileNaming.defaultStem
  grouped := true
  handle := "Sdk"
  separator := ""
  markers := defaultMarkers
  typeSuffix := none
  spaceSuffix := none
  writeMode := .replace
  atomic := true

/-! ## Validity -/

/-- A character of module prefixes. -/
def isPrefixChar (c : Char) : Bool := c.isAlphanum || c == '_' || c == '-' || c == '.'

/-- A text that can name a parameter. -/
def isIdentifier (name : String) : Bool :=
  match name.toList with
  | [] => false
  | c :: rest => (c.isAlpha || c == '_') && rest.all fun c => c.isAlphanum || c == '_'

/-- A text that can stand between verb and noun. -/
def isSeparator (text : String) : Bool := text.toList.all fun c => c == '-' || c == '_'

/-- The configuration is valid, or else what is wrong with it first. -/
def validate (c : Config) : Except Error Unit :=
  if c.modulePrefix.isEmpty || !c.modulePrefix.toList.all isPrefixChar then
    .error (.configuration ("module_prefix '" ++ c.modulePrefix ++
      "' must be non-empty and contain only letters, digits, '_', '-', or '.'"))
  else if !isIdentifier c.handle then
    .error (.configuration ("handle_parameter '" ++ c.handle ++ "' is not a valid parameter name"))
  else if !isSeparator c.separator then
    .error (.configuration
      ("verb_noun_separator '" ++ c.separator ++ "' may only contain '-' or '_'"))
  else if c.markers.any (·.isEmpty) then
    .error (.configuration "required_attribute_markers cannot contain empty strings")
  else if c.typeSuffix = some "" then
    .error (.configuration "client_type_suffix cannot be empty when set")
  else if c.spaceSuffix = some "" then
    .error (.configuration "client_namespace_suffix cannot be empty when set")
  else .ok ()

/-! ## Uses -/

/-- How functions are built. -/
def builder (c : Config) : FunctionBuilder := ⟨c.handle, c.separator, hasMarker c.markers⟩

/-- Which classes are clients. -/
def filter (c : Config) : ClientFilter := ⟨c.typeSuffix, c.spaceSuffix⟩

/-- How files are named. -/
def naming (c : Config) : FileNaming := ⟨c.modulePrefix⟩

/-- A run with these settings. -/
def generator (c : Config) (catalog : Catalog) : Generator := ⟨catalog, c.builder, c.grouped⟩

end Config

end WrapperGen
