import RosInterface.BuildOrder
import RosInterface.CommandLine.Arguments
import RosInterface.CommandLine.Commands
import RosInterface.CommandLine.Outcome
import RosInterface.CommandLine.Program
import RosInterface.Configuration
import RosInterface.Definition.Contents
import RosInterface.Definition.Declaration
import RosInterface.Definition.File
import RosInterface.Definition.Kind
import RosInterface.Definition.Section
import RosInterface.Document.Basic
import RosInterface.Document.Encoding
import RosInterface.FileTree.Actions
import RosInterface.FileTree.Basic
import RosInterface.FileTree.Resolve
import RosInterface.Generation.Descriptor
import RosInterface.Generation.Directories
import RosInterface.Generation.Run
import RosInterface.Json.Basic
import RosInterface.Json.Printer
import RosInterface.Main
import RosInterface.Md5
import RosInterface.MessageType.Basic
import RosInterface.MessageType.Catalog
import RosInterface.MessageType.Descriptor
import RosInterface.MessageType.Error
import RosInterface.MessageType.Family
import RosInterface.MessageType.Grammar
import RosInterface.MessageType.Linked
import RosInterface.MessageType.Signature
import RosInterface.Naming
import RosInterface.Package.Discovery
import RosInterface.Package.Filter
import RosInterface.Package.Info
import RosInterface.Package.Manifest
import RosInterface.Path
import RosInterface.Proofs.BuildOrder.Keys
import RosInterface.Proofs.BuildOrder.Orderer
import RosInterface.Proofs.BuildOrder.Remainder
import RosInterface.Proofs.BuildOrder.RoundNumbers
import RosInterface.Proofs.BuildOrder.Rounds
import RosInterface.Proofs.BuildOrder.Sequence
import RosInterface.Proofs.CommandLine.Checking
import RosInterface.Proofs.CommandLine.ExitCodes
import RosInterface.Proofs.CommandLine.Loading
import RosInterface.Proofs.CommandLine.RootNamespace
import RosInterface.Proofs.Computation
import RosInterface.Proofs.Definition.Declared
import RosInterface.Proofs.Definition.Layout
import RosInterface.Proofs.Definition.Reading
import RosInterface.Proofs.Definition.Rendering
import RosInterface.Proofs.Definition.Rereading
import RosInterface.Proofs.Document.Declarations
import RosInterface.Proofs.Family
import RosInterface.Proofs.FirstOccurrences
import RosInterface.Proofs.FileTree.Confinement
import RosInterface.Proofs.FileTree.Growth
import RosInterface.Proofs.FileTree.Joined
import RosInterface.Proofs.FileTree.Locations
import RosInterface.Proofs.FileTree.Removal
import RosInterface.Proofs.FileTree.Walks
import RosInterface.Proofs.Generation.Containment
import RosInterface.Proofs.Generation.DependencyOrder
import RosInterface.Proofs.Generation.Isolation
import RosInterface.Proofs.Generation.Logged
import RosInterface.Proofs.Generation.Memoryless
import RosInterface.Proofs.Generation.Prefix
import RosInterface.Proofs.Generation.Preservation
import RosInterface.Proofs.Generation.Staging
import RosInterface.Proofs.Md5
import RosInterface.Proofs.MessageType.Equality
import RosInterface.Proofs.MessageType.References
import RosInterface.Proofs.Naming
import RosInterface.Proofs.Order
import RosInterface.Proofs.Package.Manifest
import RosInterface.Proofs.Package.Outermost
import RosInterface.Proofs.Package.Precedence
import RosInterface.Proofs.Package.Search
import RosInterface.Proofs.Parallel
import RosInterface.Proofs.Path
import RosInterface.Proofs.Registry
import RosInterface.Proofs.Resolution.Below
import RosInterface.Proofs.Resolution.Decoding
import RosInterface.Proofs.Resolution.Dependencies
import RosInterface.Proofs.Resolution.Errors
import RosInterface.Proofs.Resolution.Flattening
import RosInterface.Proofs.Resolution.History
import RosInterface.Proofs.Resolution.Lines
import RosInterface.Proofs.Resolution.Structural
import RosInterface.Proofs.Resolution.Success
import RosInterface.Proofs.Resolution.Texts
import RosInterface.Proofs.Resolution.Unambiguous
import RosInterface.Proofs.Resolution.Walk
import RosInterface.Proofs.Text.Blanks
import RosInterface.Proofs.Text.Words
import RosInterface.Proofs.Workspace.Closure
import RosInterface.Proofs.Workspace.Contents
import RosInterface.Proofs.Workspace.ExtraTypes
import RosInterface.Proofs.Workspace.FailedFilters
import RosInterface.Proofs.Workspace.Flags
import RosInterface.Proofs.Workspace.Forgetting
import RosInterface.Proofs.Workspace.LeastSelection
import RosInterface.Proofs.Workspace.OneMore
import RosInterface.Proofs.Workspace.Operations
import RosInterface.Proofs.Workspace.Parsing
import RosInterface.Proofs.Workspace.Reachable
import RosInterface.Proofs.Workspace.Selection
import RosInterface.Proofs.Workspace.Types
import RosInterface.Proofs.Workspace.Unneeded
import RosInterface.Record.Documents
import RosInterface.Record.Errors
import RosInterface.Record.Packages
import RosInterface.Record.Reader
import RosInterface.Record.Reports
import RosInterface.Record.Types
import RosInterface.Registry
import RosInterface.Sorted
import RosInterface.Text.Blank
import RosInterface.Text.Combining
import RosInterface.Text.Lines
import RosInterface.Text.Quoted
import RosInterface.Text.Unprintable
import RosInterface.Text.Uppercase
import RosInterface.Toml.Reader
import RosInterface.Toml.Value
import RosInterface.Toml.Word
import RosInterface.Workspace.Basic
import RosInterface.Workspace.Error
import RosInterface.Workspace.Stage
import RosInterface.Xml.Lexical
import RosInterface.Xml.Node
import RosInterface.Xml.Reader
