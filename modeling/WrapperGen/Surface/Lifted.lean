import WrapperGen.Surface.Group
/-!
# The call surface

The parameters that a caller of a wrapper sees. A simple group passes through as one of them; a
complex one is replaced by its writable properties. Each keeps where it came from, so that the
argument can be put together again.

Two groups that have a property of the same name give two parameters of that name.
-/

namespace WrapperGen

/-- One parameter of the call surface. -/
structure SurfaceParameter where
  /-- The parameter's name, or the property's when lifted. -/
  name : String
  type : TypeRef
  isComplex : Bool
  /-- The name of the group it comes from. -/
  groupName : String
  /-- The position of that group. -/
  groupPosition : Nat
  /-- The declared type of that group. -/
  groupType : TypeRef
  /-- The property it was lifted from, if it was. -/
  property : Option String
  deriving DecidableEq, Repr, Inhabited

namespace SurfaceParameter

/-- Lifted from a property of a complex group. -/
def isLifted (p : SurfaceParameter) : Bool := p.property.isSome

end SurfaceParameter

namespace ParameterGroup

/-- The surface parameter for a property of the group. -/
def liftProperty (g : ParameterGroup) (p : Property) : SurfaceParameter :=
  ⟨p.name, p.type, p.type.isComplex, g.name, g.position, g.type, some p.name⟩

/-- The group as a surface parameter of its own. -/
def passThrough (g : ParameterGroup) : SurfaceParameter :=
  ⟨g.name, g.type, false, g.name, g.position, g.type, none⟩

/-- The surface parameters of one group. -/
def lift (g : ParameterGroup) : List SurfaceParameter :=
  if g.isComplex then g.writable.map g.liftProperty else [g.passThrough]

/-- Puts a group before the first one that stands at its position or a later one. -/
def insertByPosition (g : ParameterGroup) : List ParameterGroup → List ParameterGroup
  | [] => [g]
  | h :: rest => if g.position ≤ h.position then g :: h :: rest else h :: insertByPosition g rest

/-- The groups in ascending order of position; those at one position keep their order. -/
def sortByPosition (groups : List ParameterGroup) : List ParameterGroup :=
  groups.foldr insertByPosition []

/-- The call surface of a list of groups. -/
def surface (groups : List ParameterGroup) : List SurfaceParameter :=
  (sortByPosition groups).flatMap lift

end ParameterGroup

end WrapperGen
