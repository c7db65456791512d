import WrapperGen.Data.FirstSeen
import WrapperGen.Generation.FunctionSpec
import WrapperGen.Model.Error
/-!
# Reports

What a run over a list of endpoints produced: functions, gathered into output units, and failures.
-/

namespace WrapperGen

/-- Functions that go into one file. -/
structure OutputUnit where
  /-- The client type; none when all clients share one unit. -/
  name : Option String
  /-- Functions that make values, in the order in which their types were met. -/
  constructors : List FunctionSpec
  /-- Functions that call endpoints, in the order of the endpoints. -/
  wrappers : List FunctionSpec
  deriving DecidableEq, Repr, Inhabited

namespace OutputUnit

/-- Constructors first, then wrappers. -/
def functions (u : OutputUnit) : List FunctionSpec := u.constructors ++ u.wrappers

def functionNames (u : OutputUnit) : List String := u.functions.map (·.name)

def functionCount (u : OutputUnit) : Nat := u.constructors.length + u.wrappers.length

def isEmpty (u : OutputUnit) : Bool := u.functionCount == 0

/-- The names that several functions share. -/
def duplicateNames (u : OutputUnit) : List String := repeated u.functionNames

/-- What the unit is called where it has to be named. -/
def label (u : OutputUnit) : String := u.name.getD "<all>"

end OutputUnit

/-- An endpoint or a type for which no function could be built. -/
structure Failure where
  /-- `Client.Method` of an endpoint, or the label of a type. -/
  subject : String
  error : Error
  deriving DecidableEq, Repr, Inhabited

/-- The outcome of a run. -/
structure Report where
  /-- Units in the order in which their clients were met. -/
  units : List OutputUnit
  /-- Failures in the order in which they arose. -/
  failures : List Failure
  deriving DecidableEq, Repr, Inhabited

namespace Report

def constructorCount (r : Report) : Nat := (r.units.flatMap (·.constructors)).length

def wrapperCount (r : Report) : Nat := (r.units.flatMap (·.wrappers)).length

def functionCount (r : Report) : Nat := r.constructorCount + r.wrapperCount

def hasFailures (r : Report) : Bool := !r.failures.isEmpty

/-- The unit of a client type. -/
def unit? (r : Report) (name : String) : Option OutputUnit :=
  r.units.find? (·.name == some name)

/-- Every shared function name, with the label of its unit. -/
def duplicates (r : Report) : List (String × String) :=
  r.units.flatMap fun u => u.duplicateNames.map fun name => (u.label, name)

end Report

end WrapperGen
