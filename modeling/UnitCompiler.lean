import UnitCompiler.CompilationUnit
import UnitCompiler.IndexedTable
import UnitCompiler.Proofs.Ownership
import UnitCompiler.Proofs.Refusal
import UnitCompiler.Proofs.Completeness
import UnitCompiler.Proofs.DataSegment
import UnitCompiler.Proofs.Diagnosis
import UnitCompiler.Proofs.FrameSafety
import UnitCompiler.Proofs.Resolution
import UnitCompiler.Proofs.SiblingOrder
import UnitCompiler.Proofs.NonInterference
import UnitCompiler.Proofs.EmittedImage
import UnitCompiler.Proofs.EmissionCopies
import UnitCompiler.Proofs.ScopeTree
import UnitCompiler.Proofs.ScopeWalks
import UnitCompiler.Proofs.FrameLayout
import UnitCompiler.Proofs.DistinctSymbols
import UnitCompiler.Proofs.NestedData
import UnitCompiler.Proofs.CopiedItems
import UnitCompiler.Proofs.ComposedItems
import UnitCompiler.Proofs.EmittedAlone
import UnitCompiler.Proofs.DeclaredStructs
import UnitCompiler.Proofs.Rearranged
import UnitCompiler.Proofs.StructPlacement
import UnitCompiler.Proofs.Coercion
import UnitCompiler.Proofs.StoredConstants
import UnitCompiler.Proofs.UndefinedLabels
import UnitCompiler.Proofs.StructLayout
import UnitCompiler.Proofs.ReadOnlyEmission
import UnitCompiler.Proofs.CompleteRegistration
import UnitCompiler.Proofs.ArrayCapacity
import UnitCompiler.Proofs.LocalLifetimes
import UnitCompiler.Proofs.IntegerText
import UnitCompiler.Proofs.TableIndex
