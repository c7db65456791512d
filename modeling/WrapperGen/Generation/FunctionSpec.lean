import WrapperGen.Model.Shape
/-!
# Abstract functions

A generated function before it is put into any language: a name, positional parameters, a flat
list of statements and an output type. Names stand here without the marks that a language gives to
variables.
-/

namespace WrapperGen

/-- How a fresh value of a model type is made. -/
inductive ConstructionPath where
  /-- By the public constructor without parameters. -/
  | defaultConstructor
  /-- By a static factory without parameters. -/
  | factory (method : String)
  deriving DecidableEq, Repr, Inhabited

/-- The constructor if there is one, else the known factory, else a factory named `new`. -/
def ConstructionPath.ofShape (s : Shape) : ConstructionPath :=
  if s.hasDefaultConstructor then .defaultConstructor else .factory (s.factory.getD "new")

/-- One statement of a function body. -/
inductive Statement where
  /-- Makes a fresh object. -/
  | construct (object typeName : String) (path : ConstructionPath)
  /-- Sets a property of an object to a parameter, if the caller supplied that parameter. -/
  | assign (parameter object property : String)
  /-- Calls a method and emits its result. -/
  | invoke (target method : String) (arguments : List String)
  /-- Emits an object as the result. -/
  | emit (object : String)
  deriving DecidableEq, Repr, Inhabited

namespace Statement

def isConstruct : Statement → Bool
  | construct .. => true
  | _ => false

def isInvoke : Statement → Bool
  | invoke .. => true
  | _ => false

end Statement

/-- A positional parameter of a function. -/
structure ParameterSpec where
  name : String
  /-- The type asked for; an untyped parameter has none. -/
  typeName : Option String
  /-- The caller has to supply it. -/
  required : Bool
  position : Nat
  deriving DecidableEq, Repr, Inhabited

/-- What a function is for. -/
inductive FunctionKind where
  /-- It makes a value of a model type. -/
  | constructor
  /-- It calls an endpoint. -/
  | wrapper
  deriving DecidableEq, Repr, Inhabited

/-- An abstract function. -/
structure FunctionSpec where
  name : String
  kind : FunctionKind
  /-- Parameters in order of position. -/
  parameters : List ParameterSpec
  /-- Statements in order of execution. -/
  body : List Statement
  /-- The type of what is emitted, if anything is. -/
  outputType : Option String
  deriving DecidableEq, Repr, Inhabited

namespace FunctionSpec

/-- The first parameter of a name. -/
def parameter? (f : FunctionSpec) (name : String) : Option ParameterSpec :=
  f.parameters.find? (·.name == name)

/-- How many objects the body makes. -/
def constructionCount (f : FunctionSpec) : Nat := f.body.countP (·.isConstruct)

/-- The first call in the body. -/
def invocation? (f : FunctionSpec) : Option Statement := f.body.find? (·.isInvoke)

end FunctionSpec

end WrapperGen
