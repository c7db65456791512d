import WrapperGen.Files.Writer
/-!
# Problems

Why a command could not do its work. The text of a problem tells what was being done, and then,
after colons, every cause from the outermost inwards.
-/

namespace WrapperGen.Command

open Files (Cause WriteError)

/-- Why a command could not do its work. -/
inductive Problem where
  /-- The configuration cannot be loaded. -/
  | configuration (e : Error)
  /-- The configuration is not valid once the options of the call are put into it. -/
  | options (e : Error)
  /-- The assembly document at a path cannot be loaded. -/
  | assembly (path : String) (e : Error)
  /-- Functions cannot be turned into text. -/
  | text (e : Error)
  /-- The output directory cannot be made. -/
  | directory (path : String) (cause : Cause)
  /-- Files cannot be written. -/
  | files (e : WriteError)
  deriving DecidableEq, Repr, Inhabited

/-- The texts of a write error and of its cause. -/
def writeCauses (e : WriteError) : List String :=
  match e with
  | .failed _ _ cause => [e.message, cause.message]
  | _ => [e.message]

namespace Problem

/-- What was being done, and every cause. -/
def causes : Problem → List String
  | configuration e => ["failed to load generator configuration", e.message]
  | options e => ["invalid configuration after applying command-line overrides", e.message]
  | assembly path e => ["failed to load assembly metadata from " ++ path, e.message]
  | text e => ["failed to render generated functions", e.message]
  | directory path cause => ["failed to create output directory " ++ path, cause.message]
  | files e => "failed to write generated files" :: writeCauses e

/-- The text of a problem. -/
def message (p : Problem) : String := ": ".intercalate p.causes

end Problem

end WrapperGen.Command
