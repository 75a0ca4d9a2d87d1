import RosInterface.Main
import RosInterface.Cache
import RosInterface.Install.FileTree
import RosInterface.Proofs.Expansion.Bound
import RosInterface.Proofs.Expansion.Refinement
import RosInterface.Proofs.Expansion.Dependence
import RosInterface.Proofs.Expansion.Surroundings
import RosInterface.Proofs.Expansion.LookupOrder
import RosInterface.Proofs.Expansion.Reuse
import RosInterface.Proofs.Expansion.FieldTable
import RosInterface.Proofs.Expansion.Shape
import RosInterface.Proofs.Resolution.Refinement
import RosInterface.Proofs.Resolution.Definition
import RosInterface.Proofs.Resolution.Convention
import RosInterface.Proofs.Cache.History
import RosInterface.Proofs.Json.Reading
import RosInterface.Proofs.Json.Schema
import RosInterface.Proofs.Json.OneLine
import RosInterface.Proofs.Naming.Path
import RosInterface.Proofs.Registry.ByteOrder
import RosInterface.Proofs.Registry.History
import RosInterface.Proofs.Naming.Filling
import RosInterface.Proofs.Naming.Scope
import RosInterface.Proofs.Naming.Classification
import RosInterface.Proofs.Naming.KindSegment
import RosInterface.Proofs.Install.Location
import RosInterface.Proofs.Install.Overlay
import RosInterface.Proofs.Install.Resolution
import RosInterface.Proofs.Install.WholeInterface
import RosInterface.Proofs.Install.RecordName
import RosInterface.Proofs.Install.RepeatedRecord
import RosInterface.Proofs.Idl.RoundTrip
import RosInterface.Proofs.Idl.Layout
import RosInterface.Proofs.Idl.CommentMark
import RosInterface.Proofs.Idl.Streaming
import RosInterface.Proofs.Msg.Division
import RosInterface.Proofs.Idl.OpeningBrace
import RosInterface.Proofs.Idl.Concatenation
import RosInterface.Proofs.Idl.BundleText
import RosInterface.Proofs.Idl.SingleSection
import RosInterface.Proofs.Idl.Redeclaration
import RosInterface.Proofs.Idl.DeclarationOrder
import RosInterface.Proofs.Idl.ResolvedDescriptor
import RosInterface.Proofs.Idl.Substitution
import RosInterface.Proofs.Idl.SuffixMatch
import RosInterface.Proofs.Idl.SpelledNumbers
import RosInterface.Proofs.Translation.MessageFile
import RosInterface.Proofs.CommandLine.Report
