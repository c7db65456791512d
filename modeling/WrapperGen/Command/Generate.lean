import WrapperGen.Command.Call
import WrapperGen.Command.Source
/-!
# Generating files

`generate` reads an assembly document, builds all functions, renders them, and writes one file for
each client, or one for all. Endpoints and types that fail do not stop it: they are listed in the
summary, and the exit code tells of them.
-/

namespace WrapperGen.Command

open Console (ExitCode)
open Files (Disk WriteOptions)
open Json (Value)

/-! ## Summaries -/

/-- What was generated. -/
structure GenerationSummary where
  /-- The name of the assembly. -/
  assembly : String
  /-- How many endpoints were found. -/
  endpoints : Nat
  constructors : Nat
  wrappers : Nat
  /-- The files that were written, or would be. -/
  files : List String
  /-- Files were written. -/
  written : Bool
  failures : List Failure
  deriving DecidableEq, Repr, Inhabited

namespace GenerationSummary

/-- The record of a failure. -/
def failureValue (f : Failure) : Value :=
  .object [("subject", .string f.subject), ("error", .string f.error.message)]

/-- The record of a summary. -/
def toValue (s : GenerationSummary) : Value :=
  .object
    [("assembly", .string s.assembly), ("endpoints", .ofNat s.endpoints),
      ("constructors", .ofNat s.constructors), ("wrappers", .ofNat s.wrappers),
      ("files", .array (s.files.map .string)), ("written", .bool s.written),
      ("failures", .array (s.failures.map failureValue))]

/-- Failures make the result a partial one. -/
def exitCode (s : GenerationSummary) : ExitCode :=
  if s.failures.isEmpty then .success else .partialFailure

end GenerationSummary

/-! ## Configuration of a call -/

namespace GenerateOptions

/-- The configuration with the options of the call put into it. -/
def adjust (o : GenerateOptions) (c : Config) : Config :=
  { c with
    modulePrefix := o.modulePrefix.getD c.modulePrefix
    handle := o.handle.getD c.handle
    grouped := c.grouped && !o.ungrouped
    writeMode := if o.append then .append else c.writeMode }

/-- The valid configuration of the call. -/
def config? (o : GenerateOptions) (c : Config) : Except Problem Config := do
  let c := o.adjust c
  c.validate.mapError .options
  return c

end GenerateOptions

/-! ## Generation -/

/-- Functions and files that a configuration asks for. -/
structure Generation where
  /-- How many endpoints were found. -/
  endpointCount : Nat
  report : Report
  code : Code
  deriving DecidableEq, Repr, Inhabited

namespace Generation

/-- Builds all functions of an assembly and renders them. -/
def ofAssembly (c : Config) (a : Assembly) : Except Error Generation := do
  let endpoints := a.endpoints c.filter
  let report := (c.generator a.shapes.catalog).run endpoints
  let code ← Code.ofReport c.naming report
  return ⟨endpoints.length, report, code⟩

/-- The summary, with the paths of the files. -/
def summary (g : Generation) (assembly : String) (files : List String) (written : Bool) :
    GenerationSummary where
  assembly := assembly
  endpoints := g.endpointCount
  constructors := g.report.constructorCount
  wrappers := g.report.wrapperCount
  files := files
  written := written
  failures := g.report.failures

end Generation

variable {m : Type → Type} [Monad m]

/-- Makes the output directory and writes files into it, and gives their paths. -/
def writeOutput (disk : Disk m) (options : WriteOptions) (directory : String) (code : Code) :
    m (Except Problem (List String)) := do
  match ← disk.makeDirectories directory with
  | .error cause => return .error (.directory directory cause)
  | .ok () => return (← Files.writeCode disk options directory code).mapError .files

/-- Generates files, and gives the summary. -/
def generateFiles (disk : Disk m) (o : GenerateOptions) : ExceptT Problem m GenerationSummary := do
  let config ← o.config? (← ExceptT.mk (loadConfig disk o.config))
  let assembly ← ExceptT.mk (loadAssembly disk o.metadata)
  let generation ← (Generation.ofAssembly config assembly).mapError Problem.text
  if o.dryRun then
    return generation.summary assembly.name (generation.code.files.map (·.path)) false
  else
    let files ← ExceptT.mk (writeOutput disk (.ofConfig config) o.output generation.code)
    return generation.summary assembly.name files true

end WrapperGen.Command
