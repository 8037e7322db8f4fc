import ThreeAddress.BuildInfo
import ThreeAddress.Code.Check
import ThreeAddress.Code.Generate
import ThreeAddress.Code.Instr
import ThreeAddress.Code.Json
import ThreeAddress.Command.Build
import ThreeAddress.Command.Complete
import ThreeAddress.Command.Error
import ThreeAddress.Command.Inspect
import ThreeAddress.Command.Line
import ThreeAddress.Command.Name
import ThreeAddress.Command.Perform
import ThreeAddress.Command.Preferences
import ThreeAddress.Command.Report
import ThreeAddress.Command.Session
import ThreeAddress.Command.Target
import ThreeAddress.Command.Timeless
import ThreeAddress.Command.Value
import ThreeAddress.Decimal.Binary64
import ThreeAddress.Decimal.Fixed
import ThreeAddress.Decimal.Read
import ThreeAddress.Decimal.Shortest
import ThreeAddress.Diagnostic.Bag
import ThreeAddress.Diagnostic.Basic
import ThreeAddress.Diagnostic.Json
import ThreeAddress.Diagnostic.Pretty
import ThreeAddress.Diagnostic.Short
import ThreeAddress.Dict
import ThreeAddress.Digest
import ThreeAddress.Files.Access
import ThreeAddress.Files.Tree
import ThreeAddress.Flow.Check
import ThreeAddress.Flow.Graph
import ThreeAddress.Flow.Levels
import ThreeAddress.Flow.Listing
import ThreeAddress.Json
import ThreeAddress.Machine.Instr
import ThreeAddress.Machine.Lower
import ThreeAddress.Main
import ThreeAddress.Packed.Codec
import ThreeAddress.Packed.Value
import ThreeAddress.Path
import ThreeAddress.Pipeline.Artifacts
import ThreeAddress.Pipeline.Compile
import ThreeAddress.Pipeline.Directory
import ThreeAddress.Pipeline.Stage
import ThreeAddress.Pipeline.Stored
import ThreeAddress.Pipeline.Timer
import ThreeAddress.Project.Manifest
import ThreeAddress.Project.Settings
import ThreeAddress.Proofs.Code.Declarations
import ThreeAddress.Proofs.Code.EvaluationOrder
import ThreeAddress.Proofs.Code.Execution
import ThreeAddress.Proofs.Code.Faults
import ThreeAddress.Proofs.Code.Fragments
import ThreeAddress.Proofs.Code.FunctionScopes
import ThreeAddress.Proofs.Code.Labels
import ThreeAddress.Proofs.Code.OpenScopes
import ThreeAddress.Proofs.Code.Redeclaration
import ThreeAddress.Proofs.Code.Relocation
import ThreeAddress.Proofs.Code.Simulation
import ThreeAddress.Proofs.Code.Temporaries
import ThreeAddress.Proofs.Code.WellFormed
import ThreeAddress.Proofs.Diagnostic.Bag
import ThreeAddress.Proofs.Diagnostic.Key
import ThreeAddress.Proofs.Diagnostic.ShortReport
import ThreeAddress.Proofs.Diagnostic.Snippet
import ThreeAddress.Proofs.Dict
import ThreeAddress.Proofs.Fallible
import ThreeAddress.Proofs.Files.Places
import ThreeAddress.Proofs.Flow.Blocks
import ThreeAddress.Proofs.Flow.Building
import ThreeAddress.Proofs.Flow.Consistency
import ThreeAddress.Proofs.Flow.ControlFlow
import ThreeAddress.Proofs.Flow.Leaders
import ThreeAddress.Proofs.Flow.Levels
import ThreeAddress.Proofs.Flow.Liveness
import ThreeAddress.Proofs.Flow.Search
import ThreeAddress.Proofs.Json
import ThreeAddress.Proofs.Machine.Access
import ThreeAddress.Proofs.Machine.Labels
import ThreeAddress.Proofs.Machine.Layout
import ThreeAddress.Proofs.Machine.Operation
import ThreeAddress.Proofs.Machine.Registers
import ThreeAddress.Proofs.Machine.WriteBeforeRead
import ThreeAddress.Proofs.Path
import ThreeAddress.Proofs.Pipeline.Advance
import ThreeAddress.Proofs.Pipeline.Agreement
import ThreeAddress.Proofs.Pipeline.Course
import ThreeAddress.Proofs.Pipeline.Dialogue
import ThreeAddress.Proofs.Pipeline.Endings
import ThreeAddress.Proofs.Pipeline.Failure
import ThreeAddress.Proofs.Pipeline.Gating
import ThreeAddress.Proofs.Pipeline.Keys
import ThreeAddress.Proofs.Pipeline.Schedules
import ThreeAddress.Proofs.Pipeline.Stored
import ThreeAddress.Proofs.Pipeline.Tracing
import ThreeAddress.Proofs.Pipeline.Transparency
import ThreeAddress.Proofs.Register.Allocation
import ThreeAddress.Proofs.Register.Colouring
import ThreeAddress.Proofs.Register.Exactness
import ThreeAddress.Proofs.Register.Interference
import ThreeAddress.Proofs.Register.Pressure
import ThreeAddress.Proofs.Register.StepLog
import ThreeAddress.Proofs.Run.Following
import ThreeAddress.Proofs.Run.Frames
import ThreeAddress.Proofs.Run.Limits
import ThreeAddress.Proofs.Run.Stepwise
import ThreeAddress.Proofs.Source.CleanUp
import ThreeAddress.Proofs.Source.Lines
import ThreeAddress.Proofs.Symbol.Scopes
import ThreeAddress.Proofs.Syntax.Acceptance
import ThreeAddress.Proofs.Syntax.Arena
import ThreeAddress.Proofs.Syntax.Building
import ThreeAddress.Proofs.Syntax.Climbing
import ThreeAddress.Proofs.Syntax.Completeness
import ThreeAddress.Proofs.Syntax.Derivation
import ThreeAddress.Proofs.Syntax.Drawing
import ThreeAddress.Proofs.Syntax.ErrorLimit
import ThreeAddress.Proofs.Syntax.Forest
import ThreeAddress.Proofs.Syntax.Grammar
import ThreeAddress.Proofs.Syntax.Inline
import ThreeAddress.Proofs.Syntax.Nodes
import ThreeAddress.Proofs.Syntax.Soundness
import ThreeAddress.Proofs.Syntax.SpanNesting
import ThreeAddress.Proofs.Syntax.Steps
import ThreeAddress.Proofs.Text.Columns
import ThreeAddress.Proofs.Text.Composition
import ThreeAddress.Proofs.Text.Decomposition
import ThreeAddress.Proofs.Text.Glyphs
import ThreeAddress.Proofs.Text.Numeral
import ThreeAddress.Proofs.Token.Lexing
import ThreeAddress.Proofs.Token.LookAhead
import ThreeAddress.Proofs.Token.Pieces
import ThreeAddress.Proofs.Token.Relexing
import ThreeAddress.Proofs.Token.Tiling
import ThreeAddress.Proofs.Trace.Document
import ThreeAddress.Proofs.Trace.Nesting
import ThreeAddress.Proofs.Trace.Ring
import ThreeAddress.Register.Allocation
import ThreeAddress.Register.Interference
import ThreeAddress.Register.Listing
import ThreeAddress.Register.LiveRange
import ThreeAddress.Run.Eval
import ThreeAddress.Run.Fault
import ThreeAddress.Run.State
import ThreeAddress.Run.Value
import ThreeAddress.Sample
import ThreeAddress.Screen.Progress
import ThreeAddress.Screen.Steps
import ThreeAddress.Sieve
import ThreeAddress.Source.File
import ThreeAddress.Source.FileSet
import ThreeAddress.Source.Span
import ThreeAddress.Symbol.Listing
import ThreeAddress.Symbol.Table
import ThreeAddress.Syntax.Drawing
import ThreeAddress.Syntax.Expr
import ThreeAddress.Syntax.Inline
import ThreeAddress.Syntax.Json
import ThreeAddress.Syntax.Malformed
import ThreeAddress.Syntax.Operator
import ThreeAddress.Syntax.Outline
import ThreeAddress.Syntax.Parser
import ThreeAddress.Syntax.Problem
import ThreeAddress.Syntax.Spans
import ThreeAddress.Syntax.Tree
import ThreeAddress.Text.Basic
import ThreeAddress.Text.Blank
import ThreeAddress.Text.Case
import ThreeAddress.Text.ClusterTable
import ThreeAddress.Text.CodeSet
import ThreeAddress.Text.Compose
import ThreeAddress.Text.ComposeTable
import ThreeAddress.Text.Distance
import ThreeAddress.Text.Duration
import ThreeAddress.Text.Printable
import ThreeAddress.Text.Quoted
import ThreeAddress.Text.Style
import ThreeAddress.Text.Utf8
import ThreeAddress.Text.Width
import ThreeAddress.Text.WidthTable
import ThreeAddress.Token.Basic
import ThreeAddress.Token.Cursor
import ThreeAddress.Token.Lexer
import ThreeAddress.Token.Listing
import ThreeAddress.Token.Session
import ThreeAddress.Toml.DateTime
import ThreeAddress.Toml.Document
import ThreeAddress.Toml.Value
import ThreeAddress.Toml.Written
import ThreeAddress.Trace.Clock
import ThreeAddress.Trace.Event
import ThreeAddress.Trace.Level
import ThreeAddress.Trace.Tracer
import ThreeAddress.Word
