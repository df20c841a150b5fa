import PropCheck.Assignability.Explanation
import PropCheck.Check.Run
import PropCheck.Diagnostic.Basic
import PropCheck.Options.Config
import PropCheck.Program.Basic
import PropCheck.Script.Scope
import PropCheck.Source.Disk
import PropCheck.Source.ScriptTag
import PropCheck.Template.Compilation
import PropCheck.Workspace
import PropCheck.Proofs.DepthLimit
import PropCheck.Proofs.Sameness
import PropCheck.Proofs.OptionalSlots
import PropCheck.Proofs.Resolution
import PropCheck.Proofs.Walk
import PropCheck.Proofs.DocumentOrder
import PropCheck.Proofs.Intersections
import PropCheck.Proofs.NullSafety
import PropCheck.Proofs.Parts
import PropCheck.Proofs.Reflexivity
import PropCheck.Proofs.Reachability
import PropCheck.Proofs.DefaultByName
import PropCheck.Proofs.OptionIndependence
import PropCheck.Proofs.Spreading
import PropCheck.Proofs.NormalForm
import PropCheck.Proofs.Meanings
import PropCheck.Proofs.IndexedTypes
import PropCheck.Proofs.Rearrangement
import PropCheck.Proofs.Structural
import PropCheck.Proofs.Strictness
import PropCheck.Proofs.DeclaredNames
import PropCheck.Proofs.Leniency
import PropCheck.Proofs.NodeRoundTrip
import PropCheck.Proofs.DeclarationIndex
import PropCheck.Proofs.BuiltUnions
import PropCheck.Proofs.Explanations
import PropCheck.Proofs.BelowMembers
import PropCheck.Proofs.IntersectionOrder
import PropCheck.Proofs.BooleanLiterals
import PropCheck.Proofs.Places
import PropCheck.Proofs.RelativeSpecifiers
import PropCheck.Proofs.ResolvingStack
import PropCheck.Proofs.Expansion
import PropCheck.Proofs.CanonicalPaths
import PropCheck.Proofs.MemberTables
import PropCheck.Proofs.PublicMembers
import PropCheck.Proofs.NameMatching
import PropCheck.Proofs.ScriptOverwriting
import PropCheck.Proofs.Edits
import PropCheck.Proofs.LinePositions
import PropCheck.Proofs.Suggestions
import PropCheck.Proofs.Widening
import PropCheck.Proofs.MessageFilling
import PropCheck.Proofs.Readings
import PropCheck.Proofs.StagedUnions
