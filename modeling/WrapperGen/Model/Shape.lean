import WrapperGen.Model.TypeRef
/-!
# Shapes of model types

A shape says what building a value of a model type takes: its public properties in declaration
order, and whether a constructor without parameters or a static factory makes a fresh one.
-/

namespace WrapperGen

/-- A public instance property of a model type. -/
structure Property where
  name : String
  type : TypeRef
  /-- The property has a public setter. -/
  canWrite : Bool
  /-- Type names of the attributes on the property. -/
  attributes : List String
  deriving DecidableEq, Repr, Inhabited

namespace Property

/-- A writable property without attributes. -/
def plain (name : String) (type : TypeRef) : Property := ⟨name, type, true, []⟩

/-- The property without its setter. -/
def readOnly (p : Property) : Property := { p with canWrite := false }

/-- The property with one more attribute. -/
def withAttribute (p : Property) (mark : String) : Property :=
  { p with attributes := p.attributes ++ [mark] }

end Property

/-- How a value of a model type is made and what can be set on it. -/
structure Shape where
  /-- Public properties in declaration order. -/
  properties : List Property
  /-- A public constructor without parameters exists. -/
  hasDefaultConstructor : Bool
  /-- A public static factory without parameters, if one is known. -/
  factory : Option String
  deriving DecidableEq, Repr, Inhabited

namespace Shape

/-- A shape with a constructor without parameters. -/
def ofProperties (properties : List Property) : Shape := ⟨properties, true, none⟩

/-- The shape without that constructor; a factory may stand in for it. -/
def withoutConstructor (s : Shape) (factory : Option String) : Shape :=
  { s with hasDefaultConstructor := false, factory := factory }

/-- The properties with a public setter, in declaration order. -/
def writable (s : Shape) : List Property := s.properties.filter (·.canWrite)

end Shape

end WrapperGen
