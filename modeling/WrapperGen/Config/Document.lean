import WrapperGen.Config.Basic
import WrapperGen.Json.Record
import WrapperGen.Toml.Document
/-!
# Configurations as JSON and TOML

Every key may be left out; a key of no setting is an error.
-/

namespace WrapperGen

open Json (Value)

namespace WriteMode

/-- The words for the modes. -/
def words : List (String × WriteMode) := [("replace", replace), ("append", append)]

/-- Reads a mode from a value that stands for one in TOML: its word, or a table with an empty value
under its word. -/
def ofToml? : Value → Option WriteMode
  | .string s => words.lookup s
  | .object [(name, .object [])] => words.lookup name
  | .object [(name, .array [])] => words.lookup name
  | _ => none

end WriteMode

namespace Config

def fieldNames : List String :=
  ["module_prefix", "group_by_declaring_type", "handle_parameter", "verb_noun_separator",
    "required_attribute_markers", "client_type_suffix", "client_namespace_suffix", "write_mode",
    "atomic_writes"]

/-- The record of a configuration. -/
def toValue (c : Config) : Value :=
  .object
    [("module_prefix", .string c.modulePrefix), ("group_by_declaring_type", .bool c.grouped),
      ("handle_parameter", .string c.handle), ("verb_noun_separator", .string c.separator),
      ("required_attribute_markers", .array (c.markers.map .string)),
      ("client_type_suffix", .ofString? c.typeSuffix),
      ("client_namespace_suffix", .ofString? c.spaceSuffix),
      ("write_mode", .string c.writeMode.word), ("atomic_writes", .bool c.atomic)]

/-- Every member has the name of a setting. -/
def hasKnownNames : Value → Bool
  | .object members => members.all fun m => fieldNames.contains m.1
  | _ => true

/-- Reads a configuration from its fields. -/
def ofFields? (readMode? : Value → Option WriteMode) (room : Nat) (fields : Json.Fields) :
    Option Config := do
  let modulePrefix ← fields.optional "module_prefix" default.modulePrefix Value.string?
  let grouped ← fields.optional "group_by_declaring_type" default.grouped Value.bool?
  let handle ← fields.optional "handle_parameter" default.handle Value.string?
  let separator ← fields.optional "verb_noun_separator" default.separator Value.string?
  let markers ← fields.optional "required_attribute_markers" default.markers
    (Value.list? (fun _ => Value.string?) room)
  let typeSuffix ← fields.optional "client_type_suffix" default.typeSuffix
    (Value.nullable? Value.string?)
  let spaceSuffix ← fields.optional "client_namespace_suffix" default.spaceSuffix
    (Value.nullable? Value.string?)
  let writeMode ← fields.optional "write_mode" default.writeMode readMode?
  let atomic ← fields.optional "atomic_writes" default.atomic Value.bool?
  return ⟨modulePrefix, grouped, handle, separator, markers, typeSuffix, spaceSuffix, writeMode,
    atomic⟩

/-- Reads a configuration, valid or not. -/
def ofValue? : (room : Nat) → Value → Option Config
  | 0, _ => none
  | room + 1, v =>
    if hasKnownNames v then
      (v.fields? fieldNames).bind (ofFields? (Value.choice? WriteMode.words .direct room) room)
    else none

/-- Reads a configuration from the entries of a TOML document, valid or not. -/
def ofToml? (entries : Toml.Entries) : Option Config :=
  let v := Value.object (Toml.Value.entriesToJson entries)
  if hasKnownNames v then (v.fields? fieldNames).bind (ofFields? WriteMode.ofToml? 1) else none

/-- The valid configuration that a TOML text writes. -/
def read (text : String) : Except Error Config := do
  let some config := (Toml.read? text).bind ofToml? | .error (.configuration "invalid TOML")
  config.validate
  return config

end Config

end WrapperGen
