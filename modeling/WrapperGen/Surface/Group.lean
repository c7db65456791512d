import WrapperGen.Model.Catalog
import WrapperGen.Model.Endpoint
/-!
# Parameter groups

Every declared parameter makes one group. The group of a complex parameter carries the public
properties of its type, one level deep.
-/

namespace WrapperGen

/-- A declared parameter, with its type's properties when the type is complex. -/
structure ParameterGroup where
  name : String
  type : TypeRef
  isComplex : Bool
  /-- Public properties of the type; none for a simple type. -/
  properties : List Property
  /-- The place in the declared list, counted from zero. -/
  position : Nat
  deriving DecidableEq, Repr, Inhabited

namespace ParameterGroup

/-- The properties that can be set. -/
def writable (g : ParameterGroup) : List Property := g.properties.filter (·.canWrite)

/-- The group of a parameter declared at a position. -/
def ofParameter (catalog : Catalog) (position : Nat) (p : Parameter) :
    Except Error ParameterGroup :=
  if p.type.isComplex then do
    let shape ← catalog.describe p.type.unwrapNullable
    return ⟨p.name, p.type, true, shape.properties, position⟩
  else return ⟨p.name, p.type, false, [], position⟩

/-- The groups of parameters declared from a position on. The first type that the catalog does not
describe fails them all. -/
def ofParametersFrom (catalog : Catalog) : Nat → List Parameter → Except Error (List ParameterGroup)
  | _, [] => return []
  | position, p :: rest => do
    let group ← ofParameter catalog position p
    let groups ← ofParametersFrom catalog (position + 1) rest
    return group :: groups

/-- The groups of a declared parameter list. -/
def ofParameters (catalog : Catalog) (parameters : List Parameter) :
    Except Error (List ParameterGroup) :=
  ofParametersFrom catalog 0 parameters

end ParameterGroup

end WrapperGen
