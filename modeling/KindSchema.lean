import KindSchema.Command.Arguments
import KindSchema.Command.Generate
import KindSchema.Command.Program
import KindSchema.Command.Render
import KindSchema.Command.Session
import KindSchema.Config.Basic
import KindSchema.Config.Decoding
import KindSchema.Config.Loading
import KindSchema.Config.LogLevel
import KindSchema.Decimal.Double
import KindSchema.Decimal.Shortest
import KindSchema.Files.FileStore
import KindSchema.Files.FileTree
import KindSchema.Files.Path
import KindSchema.Go.Basic
import KindSchema.Go.Conversion
import KindSchema.Go.Files
import KindSchema.Go.Printing
import KindSchema.Json.Basic
import KindSchema.Json.Decoding
import KindSchema.Json.Number
import KindSchema.Json.Reading
import KindSchema.JsonSchema.Document
import KindSchema.Kind.Basic
import KindSchema.Kind.Decoding
import KindSchema.Kind.Encoding
import KindSchema.Kind.Error
import KindSchema.Kind.TypeExpr
import KindSchema.Kind.Validation
import KindSchema.Main
import KindSchema.Naming
import KindSchema.Output.Arrangement
import KindSchema.Output.Generator
import KindSchema.Output.Header
import KindSchema.Output.Location
import KindSchema.Output.Params
import KindSchema.Output.Rendering
import KindSchema.Output.Unsupported
import KindSchema.Output.Writer
import KindSchema.Proofs.Command.CellIdentity
import KindSchema.Proofs.Command.Execution
import KindSchema.Proofs.Command.Sessions
import KindSchema.Proofs.Command.Summary
import KindSchema.Proofs.Command.ValidConfigs
import KindSchema.Proofs.Config.FirstMentions
import KindSchema.Proofs.Config.Loading
import KindSchema.Proofs.Config.Validation
import KindSchema.Proofs.Files.FileTree
import KindSchema.Proofs.Files.Path
import KindSchema.Proofs.Go.BlankLines
import KindSchema.Proofs.Go.Columns
import KindSchema.Proofs.Go.Comments
import KindSchema.Proofs.Go.Declarations
import KindSchema.Proofs.Go.DeclaredNames
import KindSchema.Proofs.Go.Expressible
import KindSchema.Proofs.Go.Failures
import KindSchema.Proofs.Go.FileParts
import KindSchema.Proofs.Go.Identifiers
import KindSchema.Proofs.Go.Imports
import KindSchema.Proofs.Go.Literals
import KindSchema.Proofs.Go.Pointers
import KindSchema.Proofs.Go.PrintedNames
import KindSchema.Proofs.Go.SectionFiles
import KindSchema.Proofs.Go.ShapeTypes
import KindSchema.Proofs.Go.SortedInPlace
import KindSchema.Proofs.Go.Tags
import KindSchema.Proofs.Go.ValidIdentifiers
import KindSchema.Proofs.Json.Edits
import KindSchema.Proofs.Json.Lexemes
import KindSchema.Proofs.Json.Parts
import KindSchema.Proofs.Json.Pointer
import KindSchema.Proofs.Json.Reading
import KindSchema.Proofs.Json.Records
import KindSchema.Proofs.Json.Spelled
import KindSchema.Proofs.Json.Spelling
import KindSchema.Proofs.JsonSchema.Faithful
import KindSchema.Proofs.JsonSchema.Pointers
import KindSchema.Proofs.JsonSchema.References
import KindSchema.Proofs.Kind.Decoding
import KindSchema.Proofs.Kind.DerivedNames
import KindSchema.Proofs.Kind.Edits
import KindSchema.Proofs.Kind.Nesting
import KindSchema.Proofs.Kind.Roles
import KindSchema.Proofs.Kind.RoundTrip
import KindSchema.Proofs.Kind.Tolerance
import KindSchema.Proofs.Kind.Validation
import KindSchema.Proofs.Kind.WellFormed
import KindSchema.Proofs.Naming
import KindSchema.Proofs.Output.Documentation
import KindSchema.Proofs.Output.FileNames
import KindSchema.Proofs.Output.Outline
import KindSchema.Proofs.Output.Quoting
import KindSchema.Proofs.Output.Rearrangement
import KindSchema.Proofs.Output.SelfContained
import KindSchema.Proofs.Output.Separation
import KindSchema.Proofs.Output.SortedInPlace
import KindSchema.Proofs.Resolution.Correspondence
import KindSchema.Proofs.Resolution.Cycles
import KindSchema.Proofs.Resolution.DeclaredNames
import KindSchema.Proofs.Resolution.Errors
import KindSchema.Proofs.Resolution.Extraction
import KindSchema.Proofs.Resolution.FieldNames
import KindSchema.Proofs.Resolution.FreshName
import KindSchema.Proofs.Resolution.InlineStructs
import KindSchema.Proofs.Resolution.Meaning
import KindSchema.Proofs.Resolution.Meetings
import KindSchema.Proofs.Resolution.MentionOrder
import KindSchema.Proofs.Resolution.Mentions
import KindSchema.Proofs.Resolution.NameSearch
import KindSchema.Proofs.Resolution.NameSources
import KindSchema.Proofs.Resolution.Nominal
import KindSchema.Proofs.Resolution.Policies
import KindSchema.Proofs.Resolution.Positions
import KindSchema.Proofs.Resolution.Reachability
import KindSchema.Proofs.Resolution.Reservation
import KindSchema.Proofs.Resolution.Run
import KindSchema.Proofs.Resolution.Sightings
import KindSchema.Proofs.Resolution.Termination
import KindSchema.Proofs.Resolution.Unfolding
import KindSchema.Proofs.Resolution.Worklist
import KindSchema.Proofs.Run.Accounting
import KindSchema.Proofs.Run.Aggregation
import KindSchema.Proofs.Run.Artifacts
import KindSchema.Proofs.Run.CellIdentity
import KindSchema.Proofs.Run.Checking
import KindSchema.Proofs.Run.Counts
import KindSchema.Proofs.Run.Index
import KindSchema.Proofs.Run.Isolation
import KindSchema.Proofs.Run.Order
import KindSchema.Proofs.Run.Outcomes
import KindSchema.Proofs.Run.Reports
import KindSchema.Proofs.Run.SharedPaths
import KindSchema.Proofs.Run.Traces
import KindSchema.Proofs.Run.Writing
import KindSchema.Proofs.Text.Comments
import KindSchema.Proofs.Text.Literals
import KindSchema.Proofs.TypeScript.Comments
import KindSchema.Proofs.TypeScript.Exports
import KindSchema.Proofs.TypeScript.Faithful
import KindSchema.Proofs.TypeScript.Indentation
import KindSchema.Proofs.TypeScript.Lexemes
import KindSchema.Proofs.TypeScript.Literals
import KindSchema.Proofs.TypeScript.ModuleNames
import KindSchema.Proofs.TypeScript.Tokens
import KindSchema.Resolved.Basic
import KindSchema.Resolved.FreshName
import KindSchema.Resolved.Resolution
import KindSchema.Resolved.Shape
import KindSchema.Resolved.Sharing
import KindSchema.Run.Outcomes
import KindSchema.Run.Pipeline
import KindSchema.Run.Report
import KindSchema.Text.Alphabetic
import KindSchema.Text.Blank
import KindSchema.Text.CaseMapping
import KindSchema.Text.Category
import KindSchema.Text.CodePoints
import KindSchema.Text.LetterCase
import KindSchema.Text.Numeric
import KindSchema.Text.Pieces
import KindSchema.Text.Printable
import KindSchema.Text.Quoted
import KindSchema.Toml.Document
import KindSchema.Toml.Quoted
import KindSchema.Toml.Scalar
import KindSchema.Toml.Table
import KindSchema.TypeScript.Index
import KindSchema.TypeScript.Types
