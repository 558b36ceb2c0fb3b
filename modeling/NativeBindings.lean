import NativeBindings.Binding.Document
import NativeBindings.Build.Bindings
import NativeBindings.CommandLine.Command
import NativeBindings.Decimal.Shortest
import NativeBindings.Files.Access
import NativeBindings.Files.Disk
import NativeBindings.Generation.Generate
import NativeBindings.Glue.Exports
import NativeBindings.Host.Type
import NativeBindings.Json.Number
import NativeBindings.Json.Reader
import NativeBindings.Json.Record
import NativeBindings.Json.String
import NativeBindings.Main
import NativeBindings.Native.Declaration
import NativeBindings.Native.FromJson
import NativeBindings.Native.ToJson
import NativeBindings.Native.Type
import NativeBindings.Output.Layout
import NativeBindings.Policy.Admission
import NativeBindings.Policy.Naming
import NativeBindings.Proofs.Boundary.Arguments
import NativeBindings.Proofs.Boundary.Handles
import NativeBindings.Proofs.Boundary.Indirection
import NativeBindings.Proofs.Boundary.ParameterNames
import NativeBindings.Proofs.Boundary.Plans
import NativeBindings.Proofs.Boundary.Qualifiers
import NativeBindings.Proofs.Boundary.Typing
import NativeBindings.Proofs.Build.Outputs
import NativeBindings.Proofs.Build.Steps
import NativeBindings.Proofs.CommandLine.Flags
import NativeBindings.Proofs.CommandLine.Prediction
import NativeBindings.Proofs.Documents.Bindings
import NativeBindings.Proofs.Documents.Comments
import NativeBindings.Proofs.Documents.Documentation
import NativeBindings.Proofs.Documents.Emission
import NativeBindings.Proofs.Documents.Exports
import NativeBindings.Proofs.Documents.Glue
import NativeBindings.Proofs.Documents.Growth
import NativeBindings.Proofs.Documents.Nesting
import NativeBindings.Proofs.Files.Disk
import NativeBindings.Proofs.Files.Path
import NativeBindings.Proofs.Files.Run
import NativeBindings.Proofs.Generation.Account
import NativeBindings.Proofs.Generation.Claims
import NativeBindings.Proofs.Generation.Constructors
import NativeBindings.Proofs.Generation.Denied
import NativeBindings.Proofs.Generation.Documentation
import NativeBindings.Proofs.Generation.Exports
import NativeBindings.Proofs.Generation.Growth
import NativeBindings.Proofs.Generation.Identifiers
import NativeBindings.Proofs.Generation.MemberNames
import NativeBindings.Proofs.Generation.Members
import NativeBindings.Proofs.Generation.Removal
import NativeBindings.Proofs.Generation.Report
import NativeBindings.Proofs.Generation.Resolution
import NativeBindings.Proofs.Generation.Selection
import NativeBindings.Proofs.Generation.WrapperNames
import NativeBindings.Proofs.Host.Levels
import NativeBindings.Proofs.Host.Mapping
import NativeBindings.Proofs.Host.Qualifiers
import NativeBindings.Proofs.Host.Spelling
import NativeBindings.Proofs.Json.Limits
import NativeBindings.Proofs.Json.Numbers
import NativeBindings.Proofs.Json.Records
import NativeBindings.Proofs.Json.Strings
import NativeBindings.Proofs.Json.Values
import NativeBindings.Proofs.Naming.MemberName
import NativeBindings.Proofs.Naming.Parameter
import NativeBindings.Proofs.Naming.Underscores
import NativeBindings.Proofs.Naming.Usable
import NativeBindings.Proofs.Native.BaseName
import NativeBindings.Proofs.Native.Decoration
import NativeBindings.Proofs.Native.FirstFault
import NativeBindings.Proofs.Native.Limits
import NativeBindings.Proofs.Native.RoundTrip
import NativeBindings.Proofs.Native.ScopeLabel
import NativeBindings.Proofs.Native.Undecorated
import NativeBindings.Proofs.Native.Written
import NativeBindings.Proofs.Output.Layout
import NativeBindings.Proofs.Output.Nesting
import NativeBindings.Proofs.Policy.Admission
import NativeBindings.Proofs.Scope.Path
import NativeBindings.Proofs.Scope.Position
import NativeBindings.Proofs.Scope.PreOrder
import NativeBindings.Proofs.Tables
import NativeBindings.Proofs.Text.Capitals
import NativeBindings.Proofs.Text.HostLines
import NativeBindings.Proofs.Text.Pieces
import NativeBindings.Settings.FromToml
import NativeBindings.Settings.Project
import NativeBindings.Text.Pieces
import NativeBindings.Text.Quoted
import NativeBindings.Text.Uppercase
import NativeBindings.Toml.Document
import NativeBindings.Toml.Node
import NativeBindings.Toml.Scalar
