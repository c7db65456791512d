import WrapperGen.Model.TypeRef
/-!
# Endpoints

An endpoint is one operation of a client: a public method with its parameters in declared order.
-/

namespace WrapperGen

/-- A declared parameter of an endpoint. -/
structure Parameter where
  name : String
  type : TypeRef
  /-- The recorded place in the declared list, counted from zero. -/
  position : Nat
  deriving DecidableEq, Repr, Inhabited

/-- A method of a client type that becomes a wrapper function. -/
structure Endpoint where
  /-- The simple name of the client type. -/
  declaringType : String
  method : String
  returnType : TypeRef
  /-- Parameters in declared order. -/
  parameters : List Parameter
  deriving DecidableEq, Repr, Inhabited

namespace Endpoint

/-- An endpoint whose parameters are numbered in the order given. -/
def ofParameters (declaringType method : String) (returnType : TypeRef)
    (parameters : List (String × TypeRef)) : Endpoint :=
  ⟨declaringType, method, returnType,
    parameters.mapIdx fun position p => ⟨p.1, p.2, position⟩⟩

/-- `Client.Method`, the label of the endpoint. -/
def qualifiedName (e : Endpoint) : String := e.declaringType ++ "." ++ e.method

end Endpoint

end WrapperGen
