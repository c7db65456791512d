import WrapperGen.Command.Call
import WrapperGen.Command.Source
/-!
# Inspecting assemblies

`inspect` shows the clients and endpoints that files would be generated for, and, if asked to, the
name of the function for each endpoint. Nothing is generated.
-/

namespace WrapperGen.Command

open Files (Disk)
open Json (Value)

/-- An endpoint with the name that its function would have. -/
structure EndpointView where
  /-- `Client.Method`. -/
  endpoint : String
  /-- The name of the function, if one can be formed. -/
  function : Option String
  /-- The label of the return type. -/
  returns : String
  /-- `name: Type` for each parameter. -/
  parameters : List String
  deriving DecidableEq, Repr, Inhabited

namespace EndpointView

/-- The name of the function for an endpoint, if it has a verb and a noun. -/
def functionName? (b : FunctionBuilder) (e : Endpoint) : Option String :=
  match Verb.ofMethod e.method, Noun.ofEndpoint e with
  | .ok verb, .ok noun => some (b.functionName verb.name noun)
  | _, _ => none

/-- The view of an endpoint. -/
def ofEndpoint (b : FunctionBuilder) (e : Endpoint) : EndpointView :=
  ⟨e.qualifiedName, functionName? b e, e.returnType.label,
    e.parameters.map fun p => p.name ++ ": " ++ p.type.label⟩

/-- The record of a view. -/
def toValue (v : EndpointView) : Value :=
  .object
    [("endpoint", .string v.endpoint), ("function", .ofString? v.function),
      ("returns", .string v.returns), ("parameters", .array (v.parameters.map .string))]

end EndpointView

/-- What an inspection found. -/
structure InspectReport where
  summary : AssemblySummary
  /-- Every endpoint, if that was asked for. -/
  endpoints : Option (List EndpointView)
  deriving DecidableEq, Repr, Inhabited

namespace InspectReport

/-- The record of what was found on a client. -/
def clientValue (c : ClientSummary) : Value :=
  .object
    [("name", .string c.name), ("namespace", .ofString? c.space),
      ("endpoints", .array (c.endpoints.map .string)), ("skipped_methods", .ofNat c.skipped)]

/-- The record of a report. -/
def toValue (r : InspectReport) : Value :=
  .object <|
    [("assembly", .string r.summary.assembly), ("type_count", .ofNat r.summary.typeCount),
      ("clients", .array (r.summary.clients.map clientValue)),
      ("endpoint_count", .ofNat r.summary.endpointCount)] ++
    match r.endpoints with
    | some views => [("endpoints", .array (views.map EndpointView.toValue))]
    | none => []

/-- The report on an assembly. -/
def ofAssembly (c : Config) (detailed : Bool) (a : Assembly) : InspectReport :=
  ⟨a.summary c.filter,
    if detailed then some ((a.endpoints c.filter).map (EndpointView.ofEndpoint c.builder))
    else none⟩

end InspectReport

/-- Inspects an assembly document. -/
def inspectAssembly {m : Type → Type} [Monad m] (disk : Disk m) (o : InspectOptions) :
    ExceptT Problem m InspectReport := do
  let config ← ExceptT.mk (loadConfig disk o.config)
  let assembly ← ExceptT.mk (loadAssembly disk o.metadata)
  return .ofAssembly config o.detailed assembly

end WrapperGen.Command
