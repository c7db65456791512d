import WrapperGen.Generation.Builder
import WrapperGen.Generation.Report
import WrapperGen.Naming.Noun
import WrapperGen.Surface.Nested
/-!
# Runs

A run goes through a list of endpoints. For each of them it

1. finds the unit of the endpoint, and opens it if no endpoint before had it;
2. builds the constructor functions of the types that no endpoint before needed;
3. builds the wrapper.

What cannot be built is written down as a failure, and never stops the run.
-/

namespace WrapperGen

/-- What a run works with. -/
structure Generator where
  catalog : Catalog
  builder : FunctionBuilder
  /-- Every client type has a unit of its own. -/
  grouped : Bool

/-- How far the constructor functions of one endpoint have come. -/
structure Construction where
  registry : TypeRegistry
  /-- The functions built for the endpoint. -/
  functions : List FunctionSpec
  /-- The failures of the run. -/
  failures : List Failure
  deriving DecidableEq, Repr, Inhabited

/-- What a run has come to. -/
structure RunState where
  /-- The types that have had their turn. -/
  registry : TypeRegistry
  /-- Where the unit of each name stands in the report. -/
  places : List (Option String × Nat)
  report : Report
  deriving DecidableEq, Repr, Inhabited

namespace RunState

/-- Nothing has been processed. -/
def start : RunState := ⟨.empty, [], ⟨[], []⟩⟩

/-- Opens a unit after those that are there. -/
def openUnit (s : RunState) (name : Option String) : RunState :=
  { s with
    places := (name, s.report.units.length) :: s.places
    report := { s.report with units := s.report.units ++ [⟨name, [], []⟩] } }

/-- The place of the unit of a name, which is opened if there is none. -/
def locate (s : RunState) (name : Option String) : Nat × RunState :=
  match s.places.lookup name with
  | some place => (place, s)
  | none => (s.report.units.length, s.openUnit name)

end RunState

/-- The unit with more functions. -/
def OutputUnit.extend (u : OutputUnit) (constructors wrappers : List FunctionSpec) : OutputUnit :=
  { u with constructors := u.constructors ++ constructors, wrappers := u.wrappers ++ wrappers }

namespace Generator

/-- The unit that an endpoint belongs to. -/
def unitOf (g : Generator) (e : Endpoint) : Option String :=
  if g.grouped then some e.declaringType else none

/-- What has to be known of an endpoint before anything is built: verb, noun and groups. -/
def prepare (g : Generator) (e : Endpoint) :
    Except Error (Verb × String × List ParameterGroup) := do
  let verb ← Verb.ofMethod e.method
  let noun ← Noun.ofEndpoint e
  let groups ← ParameterGroup.ofParameters g.catalog e.parameters
  return (verb, noun, groups)

/-- The constructor function of a type, named after it. -/
def constructorOf (g : Generator) (t : TypeRef) : Except Error FunctionSpec :=
  g.builder.constructor g.catalog (Noun.ofType t) t

/-- Gives a type its turn, unless it has had it. A type counts as registered even if its function
cannot be built. -/
def construct (g : Generator) (c : Construction) (t : TypeRef) : Construction :=
  let (isNew, registry) := c.registry.add t
  if isNew then
    match g.constructorOf t with
    | .ok f => ⟨registry, c.functions ++ [f], c.failures⟩
    | .error error => ⟨registry, c.functions, c.failures ++ [⟨t.label, error⟩]⟩
  else c

/-- Processes an endpoint: the constructor functions that it is the first to need, and its wrapper
or what stands in the way of it. -/
def process (g : Generator) (registry : TypeRegistry) (failures : List Failure) (e : Endpoint) :
    Construction × Except Error FunctionSpec :=
  match g.prepare e with
  | .error error => (⟨registry, [], failures⟩, .error error)
  | .ok (verb, noun, groups) =>
    ((ParameterGroup.nestedTypes groups).foldl g.construct ⟨registry, [], failures⟩,
      g.builder.wrapper g.catalog verb noun (ParameterGroup.surface groups) e)

/-- One endpoint of a run. -/
def step (g : Generator) (s : RunState) (e : Endpoint) : RunState :=
  let (place, s) := s.locate (g.unitOf e)
  let (built, wrapper) := g.process s.registry s.report.failures e
  let units := s.report.units.modify place (·.extend built.functions [])
  match wrapper with
  | .ok f => ⟨built.registry, s.places, ⟨units.modify place (·.extend [] [f]), built.failures⟩⟩
  | .error error =>
    ⟨built.registry, s.places, ⟨units, built.failures ++ [⟨e.qualifiedName, error⟩]⟩⟩

/-- The state of a run after endpoints. -/
def stateAfter (g : Generator) (endpoints : List Endpoint) : RunState :=
  endpoints.foldl g.step .start

/-- The report on a run over endpoints. -/
def run (g : Generator) (endpoints : List Endpoint) : Report := (g.stateAfter endpoints).report

end Generator

end WrapperGen
