import WrapperGen.Assembly.Basic
import WrapperGen.Model.Endpoint
import WrapperGen.Text.Affix
/-!
# Discovery

The clients of an assembly are its exported concrete classes that pass a filter. Of the methods of
a client those that can be called from outside, belong to it and start with a known word are its
endpoints. The summary counts the others.
-/

namespace WrapperGen

/-- Which classes count as clients: those whose name and namespace end as asked for. -/
structure ClientFilter where
  typeSuffix : Option String
  spaceSuffix : Option String
  deriving DecidableEq, Repr, Inhabited

namespace ClientFilter

/-- All classes. -/
def all : ClientFilter := ⟨none, none⟩

/-- A text ends with another one. -/
def endsWith (text ending : String) : Bool := ending.toList.isSuffixOf text.toList

/-- A class of this name and namespace passes. Without a namespace it passes only if the filter
asks for none. -/
def passes (f : ClientFilter) (name : String) (space : Option String) : Bool :=
  (match f.typeSuffix with
    | none => true
    | some ending => endsWith name ending) &&
  (match f.spaceSuffix with
    | none => true
    | some ending =>
      match space with
      | none => false
      | some s => endsWith s ending)

end ClientFilter

namespace Method

/-- The words that endpoint names start with. -/
def endpointHeads : List String := ["Get", "Create", "Delete", "Update"]

/-- The name starts with one of the words, up to the case of ASCII letters. -/
def namesEndpoint (name : String) : Bool :=
  endpointHeads.any fun head =>
    decide (Text.SameSpelling (name.toList.take head.length) head.toList)

/-- The method is an endpoint. -/
def isEndpoint (m : Method) : Bool :=
  m.isPublic && !m.isStatic && m.isDeclared && !m.isSpecial && namesEndpoint m.name

end Method

namespace TypeDefinition

/-- The type is a client that passes the filter. -/
def isClient (f : ClientFilter) (d : TypeDefinition) : Bool :=
  d.kind == .reference && d.isExported && !d.isAbstract && f.passes d.name d.space

/-- The endpoint that a method of the type makes. -/
def endpoint (d : TypeDefinition) (m : Method) : Endpoint :=
  .ofParameters d.name m.name m.returnType (m.parameters.map fun p => (p.name, p.type))

/-- The methods of the type that are endpoints. -/
def endpointMethods (d : TypeDefinition) : List Method := d.methods.filter (·.isEndpoint)

end TypeDefinition

/-- What was found on one client. -/
structure ClientSummary where
  name : String
  space : Option String
  /-- Names of the endpoints in declaration order. -/
  endpoints : List String
  /-- How many methods are no endpoints. -/
  skipped : Nat
  deriving DecidableEq, Repr, Inhabited

/-- What was found in an assembly. -/
structure AssemblySummary where
  assembly : String
  typeCount : Nat
  clients : List ClientSummary
  deriving DecidableEq, Repr, Inhabited

/-- How many endpoints there are on all clients. -/
def AssemblySummary.endpointCount (s : AssemblySummary) : Nat :=
  (s.clients.flatMap (·.endpoints)).length

/-- What was found on a client. -/
def ClientSummary.ofDefinition (d : TypeDefinition) : ClientSummary :=
  let endpoints := d.endpointMethods.map (·.name)
  ⟨d.name, d.space, endpoints, d.methods.length - endpoints.length⟩

namespace Assembly

/-- The clients that pass the filter, in declaration order. -/
def clients (a : Assembly) (f : ClientFilter) : List TypeDefinition := a.types.filter (·.isClient f)

/-- The endpoints of all clients, in declaration order. -/
def endpoints (a : Assembly) (f : ClientFilter) : List Endpoint :=
  (a.clients f).flatMap fun d => d.endpointMethods.map d.endpoint

/-- The summary of what the filter lets through. -/
def summary (a : Assembly) (f : ClientFilter) : AssemblySummary :=
  ⟨a.name, a.types.length, (a.clients f).map .ofDefinition⟩

end Assembly

end WrapperGen
