import WrapperGen.Assembly.Basic
import WrapperGen.Data.FirstSeen
import WrapperGen.Json.Reader
import WrapperGen.Json.Writer
import WrapperGen.Model.Document
import WrapperGen.Text.Blank
/-!
# Assembly documents

An assembly is kept as one JSON document. A type definition holds the fields of its shape beside
its own. A document counts once it is valid: the assembly has a name that is not blank, and no
definition name occurs twice.
-/

namespace WrapperGen

open Json (Value)

namespace MethodParameter

def fieldNames : List String := ["name", "type"]

/-- The record of a parameter. -/
def toValue (p : MethodParameter) : Value :=
  .object [("name", .string p.name), ("type", p.type.toValue)]

/-- Reads a parameter. -/
def ofValue? : (room : Nat) → Value → Option MethodParameter
  | 0, _ => none
  | room + 1, v => do
    let fields ← v.fields? fieldNames
    let name ← fields.required "name" Value.string?
    let type ← fields.required "type" (TypeRef.ofValue? .direct room)
    return ⟨name, type⟩

end MethodParameter

namespace Method

def fieldNames : List String :=
  ["name", "is_public", "is_static", "is_special_name", "declared_only", "return_type",
    "parameters"]

/-- The record of a method. -/
def toValue (m : Method) : Value :=
  .object
    [("name", .string m.name), ("is_public", .bool m.isPublic), ("is_static", .bool m.isStatic),
      ("is_special_name", .bool m.isSpecial), ("declared_only", .bool m.isDeclared),
      ("return_type", m.returnType.toValue),
      ("parameters", .array (m.parameters.map MethodParameter.toValue))]

/-- Reads a method. -/
def ofValue? : (room : Nat) → Value → Option Method
  | 0, _ => none
  | room + 1, v => do
    let fields ← v.fields? fieldNames
    let name ← fields.required "name" Value.string?
    let isPublic ← fields.optional "is_public" true Value.bool?
    let isStatic ← fields.optional "is_static" false Value.bool?
    let isSpecial ← fields.optional "is_special_name" false Value.bool?
    let isDeclared ← fields.optional "declared_only" true Value.bool?
    let returnType ← fields.required "return_type" (TypeRef.ofValue? .direct room)
    let parameters ← fields.optional "parameters" [] (Value.list? MethodParameter.ofValue? room)
    return ⟨name, isPublic, isStatic, isSpecial, isDeclared, returnType, parameters⟩

end Method

namespace TypeDefinition

/-- The fields of a type definition that are not its shape's. -/
def fieldNames : List String :=
  ["namespace", "name", "kind", "is_exported", "is_abstract", "methods"]

/-- The record of a type definition. -/
def toValue (d : TypeDefinition) : Value :=
  .object <|
    [("namespace", .ofString? d.space), ("name", .string d.name), ("kind", .string d.kind.word),
      ("is_exported", .bool d.isExported), ("is_abstract", .bool d.isAbstract)] ++
    d.shape.members ++ [("methods", .array (d.methods.map Method.toValue))]

/-- The members of a type definition that its own fields leave over. -/
def otherMembers (members : List (String × Value)) : List (String × Value) :=
  members.filter fun m => !fieldNames.contains m.1

/-- Reads a type definition, which has to be an object. All that its own fields leave over has to
fit into the room, whether it belongs to the shape or to nothing. -/
def ofValue? : (room : Nat) → Value → Option TypeDefinition
  | room + 1, .object members => do
    let fields ← (Value.object members).fields? fieldNames
    let space ← fields.optional "namespace" none (Value.nullable? Value.string?)
    let name ← fields.required "name" Value.string?
    let kind ← fields.optional "kind" .reference (Value.choice? TypeKind.words .direct room)
    let isExported ← fields.optional "is_exported" true Value.bool?
    let isAbstract ← fields.optional "is_abstract" false Value.bool?
    let methods ← fields.optional "methods" [] (Value.list? Method.ofValue? room)
    guard (Value.membersFit room (otherMembers members))
    let shapeFields ← (Value.object (otherMembers members)).fields? Shape.fieldNames
    let shape ← Shape.ofFields? .kept room shapeFields
    return ⟨space, name, kind, isExported, isAbstract, shape, methods⟩
  | _, _ => none

end TypeDefinition

namespace Assembly

def fieldNames : List String := ["assembly", "types"]

/-- How deep arrays and objects nest in a document, at most. -/
def maxDepth : Nat := 127

/-- The record of an assembly. -/
def toValue (a : Assembly) : Value :=
  .object [("assembly", .string a.name), ("types", .array (a.types.map TypeDefinition.toValue))]

/-- Reads an assembly from a room. -/
def ofValueIn? : (room : Nat) → Value → Option Assembly
  | 0, _ => none
  | room + 1, v => do
    let fields ← v.fields? fieldNames
    let name ← fields.required "assembly" Value.string?
    let types ← fields.optional "types" [] (Value.list? TypeDefinition.ofValue? room)
    return ⟨name, types⟩

/-- Reads an assembly, valid or not. -/
def ofValue? (v : Value) : Option Assembly := ofValueIn? maxDepth v

/-- The assembly is valid, or else what is wrong with it first. -/
def validate (a : Assembly) : Except Error Unit :=
  if (Text.trimStart a.name.toList).isEmpty then
    .error (.metadata "assembly name cannot be empty" false)
  else
    match repeated (a.types.map (·.definitionName)) with
    | [] => .ok ()
    | name :: _ => .error (.metadata ("type '" ++ name ++ "' is defined more than once") false)

/-- The error for a text that is no assembly document. -/
def malformed : Error := .metadata "invalid metadata JSON" true

/-- The valid assembly of a value. -/
def ofValue (v : Value) : Except Error Assembly := do
  let some a := ofValue? v | .error malformed
  a.validate
  return a

/-- The valid assembly that a text documents. -/
def read (text : String) : Except Error Assembly :=
  match Value.read? text with
  | none => .error malformed
  | some v => ofValue v

/-- The document of an assembly. -/
def write (a : Assembly) : String := a.toValue.compact

end Assembly

end WrapperGen
