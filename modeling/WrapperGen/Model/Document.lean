import WrapperGen.Json.Record
import WrapperGen.Model.Endpoint
import WrapperGen.Model.Shape
/-!
# The model as JSON

How types, properties, shapes, parameters and endpoints are written as records, and read back.
Fields that hold their usual value may be left out; the readers fill them in.
-/

namespace WrapperGen

open Json (Provenance Value)

/-! ## Types -/

namespace TypeKind

/-- The words for the kinds. -/
def words : List (String × TypeKind) :=
  [("class", reference), ("struct", value), ("enum", enumeration), ("interface", interface),
    ("array", array), ("generic_parameter", genericParameter), ("void", void)]

/-- The word for a kind. -/
def word : TypeKind → String
  | reference => "class"
  | value => "struct"
  | enumeration => "enum"
  | interface => "interface"
  | array => "array"
  | genericParameter => "generic_parameter"
  | void => "void"

theorem lookup_word (kind : TypeKind) : words.lookup kind.word = some kind := by
  cases kind <;> decide

end TypeKind

namespace TypeRef

def fieldNames : List String := ["namespace", "name", "kind", "generic_arguments"]

mutual

/-- The record of a type. -/
def toValue : TypeRef → Value
  | ⟨space, name, kind, arguments⟩ =>
    .object <|
      (match space with
        | none => []
        | some s => [("namespace", .string s)]) ++
      [("name", .string name), ("kind", .string kind.word)] ++
      (match arguments with
        | [] => []
        | a :: as => [("generic_arguments", .array (toValue a :: toValues as))])

/-- The records of types. -/
def toValues : List TypeRef → List Value
  | [] => []
  | t :: ts => toValue t :: toValues ts

end

mutual

/-- Reads a type. -/
def ofValue? (provenance : Provenance) : (room : Nat) → Value → Option TypeRef
  | 0, _ => none
  | room + 1, v => do
    let fields ← v.fields? fieldNames
    let space ← fields.optional "namespace" none (Value.nullable? Value.string?)
    let name ← fields.required "name" Value.string?
    let kind ← fields.optional "kind" .reference (Value.choice? TypeKind.words provenance room)
    let arguments ← fields.optional "generic_arguments" [] (argumentsOfValue? provenance room)
    return ⟨space, name, kind, arguments⟩

/-- Reads the arguments of a type. -/
def argumentsOfValue? (provenance : Provenance) : (room : Nat) → Value → Option (List TypeRef)
  | 0, _ => none
  | room + 1, .array items => items.mapM (ofValue? provenance room)
  | _ + 1, _ => none

end

end TypeRef

/-! ## Properties and shapes -/

namespace Property

def fieldNames : List String := ["name", "type", "can_write", "attributes"]

/-- The record of a property. -/
def toValue (p : Property) : Value :=
  .object <|
    [("name", .string p.name), ("type", p.type.toValue), ("can_write", .bool p.canWrite)] ++
    (if p.attributes.isEmpty then [] else [("attributes", .array (p.attributes.map .string))])

/-- Reads a property. -/
def ofValue? (provenance : Provenance) : (room : Nat) → Value → Option Property
  | 0, _ => none
  | room + 1, v => do
    let fields ← v.fields? fieldNames
    let name ← fields.required "name" Value.string?
    let type ← fields.required "type" (TypeRef.ofValue? provenance room)
    let canWrite ← fields.optional "can_write" true Value.bool?
    let attributes ← fields.optional "attributes" [] (Value.list? (fun _ => Value.string?) room)
    return ⟨name, type, canWrite, attributes⟩

end Property

namespace Shape

def fieldNames : List String := ["properties", "has_parameterless_constructor", "static_factory"]

/-- The fields of a shape that come before the factory. -/
def leadingMembers (s : Shape) : List (String × Value) :=
  [("properties", .array (s.properties.map Property.toValue)),
    ("has_parameterless_constructor", .bool s.hasDefaultConstructor)]

/-- The fields of a shape. -/
def members (s : Shape) : List (String × Value) :=
  s.leadingMembers ++
    match s.factory with
    | none => []
    | some method => [("static_factory", .string method)]

/-- The record of a shape. -/
def toValue (s : Shape) : Value := .object s.members

/-- Reads a shape from its fields. -/
def ofFields? (provenance : Provenance) (room : Nat) (fields : Json.Fields) : Option Shape := do
  let properties ← fields.optional "properties" []
    (Value.list? (Property.ofValue? provenance) room)
  let hasDefaultConstructor ← fields.optional "has_parameterless_constructor" true Value.bool?
  let factory ← fields.optional "static_factory" none (Value.nullable? Value.string?)
  return ⟨properties, hasDefaultConstructor, factory⟩

/-- Reads a shape. -/
def ofValue? : (room : Nat) → Value → Option Shape
  | 0, _ => none
  | room + 1, v => (v.fields? fieldNames).bind (ofFields? .direct room)

end Shape

/-! ## Endpoints -/

namespace Parameter

def fieldNames : List String := ["name", "type", "position"]

/-- The record of a parameter. -/
def toValue (p : Parameter) : Value :=
  .object [("name", .string p.name), ("type", p.type.toValue), ("position", .ofNat p.position)]

/-- Reads a parameter. -/
def ofValue? : (room : Nat) → Value → Option Parameter
  | 0, _ => none
  | room + 1, v => do
    let fields ← v.fields? fieldNames
    let name ← fields.required "name" Value.string?
    let type ← fields.required "type" (TypeRef.ofValue? .direct room)
    let position ← fields.required "position" Value.natural?
    return ⟨name, type, position⟩

end Parameter

namespace Endpoint

def fieldNames : List String := ["declaring_type", "method_name", "return_type", "parameters"]

/-- The record of an endpoint. -/
def toValue (e : Endpoint) : Value :=
  .object
    [("declaring_type", .string e.declaringType), ("method_name", .string e.method),
      ("return_type", e.returnType.toValue),
      ("parameters", .array (e.parameters.map Parameter.toValue))]

/-- Reads an endpoint. -/
def ofValue? : (room : Nat) → Value → Option Endpoint
  | 0, _ => none
  | room + 1, v => do
    let fields ← v.fields? fieldNames
    let declaringType ← fields.required "declaring_type" Value.string?
    let method ← fields.required "method_name" Value.string?
    let returnType ← fields.required "return_type" (TypeRef.ofValue? .direct room)
    let parameters ← fields.required "parameters" (Value.list? Parameter.ofValue? room)
    return ⟨declaringType, method, returnType, parameters⟩

end Endpoint

end WrapperGen
