import WrapperGen.Command.Program
import WrapperGen.Files.Tree
import WrapperGen.Main
import WrapperGen.Proofs.CallSurface
import WrapperGen.Proofs.WrapperBody
import WrapperGen.Proofs.Execution
import WrapperGen.Proofs.Reconstruction
import WrapperGen.Data.Keyed
import WrapperGen.Proofs.RunState
import WrapperGen.Proofs.RunReport
import WrapperGen.Data.Obstacles
import WrapperGen.Proofs.EndpointOutcome
import WrapperGen.Proofs.EndpointListing
import WrapperGen.Proofs.EndpointNames
import WrapperGen.Proofs.JsonRoom
import WrapperGen.Proofs.BuiltFunctions
import WrapperGen.Proofs.NameCapture
import WrapperGen.Proofs.ArgumentBlocks
import WrapperGen.Proofs.OptionalTypes
import WrapperGen.Proofs.NestedTypes
import WrapperGen.Proofs.Loosening
import WrapperGen.Proofs.ModelDocument
import WrapperGen.Proofs.AssemblyDocument
import WrapperGen.Proofs.FunctionText
import WrapperGen.Proofs.UniqueText
import WrapperGen.Proofs.PathParts
import WrapperGen.Proofs.WriterRun
import WrapperGen.Proofs.FileMaps
import WrapperGen.Proofs.Containment
import WrapperGen.Proofs.Replacement
import WrapperGen.Proofs.OutputFiles
import WrapperGen.Proofs.RunGrowth
import WrapperGen.Proofs.WrapperScope
import WrapperGen.Proofs.Preview
import WrapperGen.Proofs.FileService
import WrapperGen.Proofs.Regeneration
import WrapperGen.Proofs.TypeLiterals
import WrapperGen.Proofs.CatalogAnswers
import WrapperGen.Proofs.Plurals
import WrapperGen.Proofs.EndpointNouns
import WrapperGen.Proofs.DecoratedNames
import WrapperGen.Proofs.LostNouns
import WrapperGen.Proofs.SurfaceOrder
import WrapperGen.Proofs.ByteSlices
import WrapperGen.Proofs.DuplicateNames
import WrapperGen.Proofs.EditedDocuments
import WrapperGen.Proofs.OutlineText
