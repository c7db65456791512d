/-!
# Errors

Every failure of the generator, by cause. Failures of one endpoint or type are *local*: a run
records them and goes on.
-/

namespace WrapperGen

/-- Why something could not be generated, read or written down. -/
inductive Error where
  /-- The method name starts with no verb. -/
  | unrecognizedVerb (method : String)
  /-- A type has no full name; the use that needed it is told. -/
  | unresolvableTypeName (use : String)
  /-- A catalog cannot describe a type. -/
  | typeIntrospection (typeName reason : String)
  /-- The configuration cannot be read or is not valid. -/
  | configuration (message : String)
  /-- The metadata cannot be read or is not valid; `malformed` when the document is not of the
  metadata format at all. -/
  | metadata (message : String) (malformed : Bool)
  /-- Text could not be made from a function. -/
  | serialization (message : String)
  | invalidArgument (message : String)
  deriving DecidableEq, Repr, Inhabited

namespace Error

/-- The text of an error. -/
def message : Error → String
  | unrecognizedVerb method => "Unrecognized verb in method name: " ++ method
  | unresolvableTypeName use => "Cannot resolve a fully qualified type name for " ++ use
  | typeIntrospection typeName reason =>
    "Type introspection failed for '" ++ typeName ++ "': " ++ reason
  | configuration message => "Configuration error: " ++ message
  | metadata message _ => "Metadata error: " ++ message
  | serialization message => "Serialization error: " ++ message
  | invalidArgument message => "Invalid argument: " ++ message

def isUnrecognizedVerb : Error → Bool
  | unrecognizedVerb _ => true
  | _ => false

def isUnresolvableTypeName : Error → Bool
  | unresolvableTypeName _ => true
  | _ => false

def isTypeIntrospection : Error → Bool
  | typeIntrospection .. => true
  | _ => false

def isConfiguration : Error → Bool
  | configuration _ => true
  | _ => false

def isMetadata : Error → Bool
  | metadata .. => true
  | _ => false

def isSerialization : Error → Bool
  | serialization _ => true
  | _ => false

/-- The failure concerns one endpoint or type only. -/
def isLocal (e : Error) : Bool :=
  e.isUnrecognizedVerb || e.isUnresolvableTypeName || e.isTypeIntrospection || e.isSerialization

end Error

end WrapperGen
