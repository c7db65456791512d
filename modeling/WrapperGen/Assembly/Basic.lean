import WrapperGen.Model.Catalog
/-!
# Assemblies

The reflected surface of a client assembly: its type definitions with their shapes and methods.
-/

namespace WrapperGen

/-- A parameter of a method. -/
structure MethodParameter where
  name : String
  type : TypeRef
  deriving DecidableEq, Repr, Inhabited

/-- A method of a type. -/
structure Method where
  name : String
  isPublic : Bool
  isStatic : Bool
  /-- An accessor or operator. -/
  isSpecial : Bool
  /-- Declared on the type itself and not inherited. -/
  isDeclared : Bool
  returnType : TypeRef
  /-- Parameters in declaration order. -/
  parameters : List MethodParameter
  deriving DecidableEq, Repr, Inhabited

/-- A type of the assembly. -/
structure TypeDefinition where
  space : Option String
  /-- The name, arity mark included. -/
  name : String
  kind : TypeKind
  /-- Visible outside the assembly. -/
  isExported : Bool
  /-- Abstract or static. -/
  isAbstract : Bool
  shape : Shape
  /-- Methods in declaration order. -/
  methods : List Method
  deriving DecidableEq, Repr, Inhabited

/-- A client assembly. -/
structure Assembly where
  name : String
  types : List TypeDefinition
  deriving DecidableEq, Repr, Inhabited

namespace TypeDefinition

/-- The name under which catalogs list the type. -/
def definitionName (d : TypeDefinition) : String := qualify d.space d.name

/-- The reference to the type without arguments. -/
def typeRef (d : TypeDefinition) : TypeRef := ⟨d.space, d.name, d.kind, []⟩

end TypeDefinition

namespace Assembly

/-- The first type of a definition name. -/
def find? (a : Assembly) (name : String) : Option TypeDefinition :=
  a.types.find? (·.definitionName == name)

/-- The place of the first type of a definition name. -/
def findIdx? (a : Assembly) (name : String) : Option Nat :=
  a.types.findIdx? (·.definitionName == name)

/-- The shapes of all types. -/
def shapes (a : Assembly) : ShapeTable :=
  .ofList (a.types.map fun d => (d.definitionName, d.shape))

end Assembly

end WrapperGen
