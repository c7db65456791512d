import WrapperGen.Generation.FunctionSpec
import WrapperGen.Naming.Verb
import WrapperGen.Surface.Lifted
import WrapperGen.Text.Infix
/-!
# Building functions

1. `constructor` builds the function that makes a value of a complex type: one parameter for each
   writable property, an object, one assignment for each parameter, and the object as result.
2. `wrapper` builds the function that calls an endpoint: the client handle at position 0, then the
   call surface; its body puts every complex argument together and calls the endpoint with the
   arguments in declared order.
-/

namespace WrapperGen

/-- How functions are named and which properties a caller has to supply. -/
structure FunctionBuilder where
  /-- The name of the parameter that takes the client. -/
  handle : String
  /-- What stands between verb and noun. -/
  separator : String
  /-- A property that has to be supplied whatever its type. -/
  isRequired : Property → Bool

/-- An attribute of the property has a type name with one of the markers in it. -/
def hasMarker (markers : List String) (p : Property) : Bool :=
  p.attributes.any fun name => markers.any fun marker => Text.hasInfix marker.toList name.toList

/-- The markers of attributes that make a property required. -/
def defaultMarkers : List String := ["Required", "Mandatory"]

namespace FunctionBuilder

/-- A client named `Sdk`, verbs and nouns joined directly, and the usual markers. -/
def default : FunctionBuilder := ⟨"Sdk", "", hasMarker defaultMarkers⟩

/-- The name of a function. -/
def functionName (b : FunctionBuilder) (verb noun : String) : String := verb ++ b.separator ++ noun

/-- The full name of a type that something uses. -/
def resolve (t : TypeRef) (use : String) : Except Error String :=
  match t.fullName? with
  | some name => .ok name
  | none => .error (.unresolvableTypeName use)

/-! ## Constructors -/

/-- The verb of functions that make a value. -/
def constructorVerb : String := "New"

/-- The name of the object in a constructor's body. -/
def constructorObject : String := "obj"

/-- The parameter for a settable property of a type. -/
def propertyParameter (b : FunctionBuilder) (typeName : String) (position : Nat) (p : Property) :
    Except Error ParameterSpec := do
  let name ← resolve p.type.unwrapNullable ("property '" ++ p.name ++ "' of '" ++ typeName ++ "'")
  return ⟨p.name, some name, p.type.isRequiredValue || b.isRequired p, position⟩

/-- The parameters for settable properties, from a position on. -/
def propertyParameters (b : FunctionBuilder) (typeName : String) :
    Nat → List Property → Except Error (List ParameterSpec)
  | _, [] => return []
  | position, p :: rest => do
    let spec ← b.propertyParameter typeName position p
    let specs ← b.propertyParameters typeName (position + 1) rest
    return spec :: specs

/-- The assignment of a settable property in a constructor's body. -/
def assignProperty (object : String) (p : Property) : Statement := .assign p.name object p.name

/-- The function that makes a value of a complex type. -/
def constructor (b : FunctionBuilder) (catalog : Catalog) (noun : String) (t : TypeRef) :
    Except Error FunctionSpec := do
  let typeName ← resolve t ("constructor type '" ++ t.name ++ "'")
  let shape ← catalog.describe t
  let parameters ← b.propertyParameters typeName 0 shape.writable
  return {
    name := b.functionName constructorVerb noun
    kind := .constructor
    parameters
    body := .construct constructorObject typeName (.ofShape shape) ::
      shape.writable.map (assignProperty constructorObject) ++ [.emit constructorObject]
    outputType := some typeName }

/-! ## Wrappers -/

/-- The parameter that takes the client. -/
def handleParameter (b : FunctionBuilder) : ParameterSpec := ⟨b.handle, none, true, 0⟩

/-- The parameter for one entry of the call surface. A complex one has to be supplied, and so has
a value that cannot be absent. -/
def surfaceParameter (e : Endpoint) (position : Nat) (p : SurfaceParameter) :
    Except Error ParameterSpec := do
  let name ← resolve p.type.unwrapNullable
    ("parameter '" ++ p.name ++ "' of " ++ e.qualifiedName)
  return ⟨p.name, some name, p.isComplex || p.type.isRequiredValue, position⟩

/-- The parameters for a call surface, from a position on. -/
def surfaceParameters (e : Endpoint) :
    Nat → List SurfaceParameter → Except Error (List ParameterSpec)
  | _, [] => return []
  | position, p :: rest => do
    let spec ← surfaceParameter e position p
    let specs ← surfaceParameters e (position + 1) rest
    return spec :: specs

/-- The name of the object that stands for the argument at a position. -/
def argumentObject (position : Nat) : String := "obj" ++ toString position

/-- The assignment of a surface parameter to an argument that is put together. -/
def assignMember (object : String) (p : SurfaceParameter) : Statement :=
  .assign p.name object (p.property.getD p.name)

/-- An argument of the call, with the statements that make it. -/
structure Argument where
  statements : List Statement
  name : String
  deriving DecidableEq, Repr, Inhabited

/-- The type that members of an argument were lifted from; without members, the declared one. -/
def groupType (declared : Parameter) : List SurfaceParameter → TypeRef
  | [] => declared.type
  | first :: _ => first.groupType

/-- The argument at a position is put together from the surface parameters that come from there;
its type is the one they were lifted from. -/
def buildArgument (catalog : Catalog) (e : Endpoint) (position : Nat) (declared : Parameter)
    (members : List SurfaceParameter) : Except Error Argument := do
  let t := (groupType declared members).unwrapNullable
  let typeName ← resolve t ("argument '" ++ declared.name ++ "' of " ++ e.qualifiedName)
  let shape ← catalog.describe t
  let object := argumentObject position
  return ⟨.construct object typeName (.ofShape shape) :: members.map (assignMember object), object⟩

/-- The argument at a position. A parameter that passes through is the argument itself, and so is a
simple one of which the surface knows nothing; any other argument is put together. -/
def argument (catalog : Catalog) (surface : List SurfaceParameter) (e : Endpoint) (position : Nat)
    (declared : Parameter) : Except Error Argument :=
  match surface.filter (·.groupPosition == position) with
  | [] =>
    if declared.type.isComplex then buildArgument catalog e position declared []
    else .ok ⟨[], declared.name⟩
  | [p] =>
    if p.isLifted then buildArgument catalog e position declared [p] else .ok ⟨[], p.name⟩
  | p :: q :: rest => buildArgument catalog e position declared (p :: q :: rest)

/-- The arguments for declared parameters, from a position on. -/
def arguments (catalog : Catalog) (surface : List SurfaceParameter) (e : Endpoint) :
    Nat → List Parameter → Except Error (List Argument)
  | _, [] => return []
  | position, declared :: rest => do
    let first ← argument catalog surface e position declared
    let others ← arguments catalog surface e (position + 1) rest
    return first :: others

/-- The output type of a wrapper: none when the payload is nothing. -/
def outputType (e : Endpoint) : Except Error (Option String) :=
  if e.returnType.payload.isVoidLike then .ok none
  else do
    let name ← resolve e.returnType.payload ("return type of " ++ e.qualifiedName)
    return some name

/-- The function that calls an endpoint. -/
def wrapper (b : FunctionBuilder) (catalog : Catalog) (verb : Verb) (noun : String)
    (surface : List SurfaceParameter) (e : Endpoint) : Except Error FunctionSpec := do
  let parameters ← surfaceParameters e 1 surface
  let arguments ← arguments catalog surface e 0 e.parameters
  let outputType ← outputType e
  return {
    name := b.functionName verb.name noun
    kind := .wrapper
    parameters := b.handleParameter :: parameters
    body := arguments.flatMap (·.statements) ++
      [.invoke b.handle e.method (arguments.map (·.name))]
    outputType }

end FunctionBuilder

end WrapperGen
