import PipelineScript.Command.Arguments
import PipelineScript.Command.Command
import PipelineScript.Description.Description
import PipelineScript.Description.Id
import PipelineScript.Description.NodeKind
import PipelineScript.Description.Options
import PipelineScript.Description.Storage
import PipelineScript.Event
import PipelineScript.Failure.CompileError
import PipelineScript.Failure.Failure
import PipelineScript.Files.FileTask
import PipelineScript.Files.FileTree
import PipelineScript.Files.Path
import PipelineScript.Graph.Graph
import PipelineScript.Graph.Order
import PipelineScript.Import.Directive
import PipelineScript.Import.ImportBlock
import PipelineScript.Import.Requirements
import PipelineScript.Json.Codec
import PipelineScript.Json.Containers
import PipelineScript.Json.Document
import PipelineScript.Json.Fault
import PipelineScript.Json.Parser
import PipelineScript.Json.Printer
import PipelineScript.Json.Reader
import PipelineScript.Json.Record
import PipelineScript.Json.Scan
import PipelineScript.Json.Standard
import PipelineScript.Json.Value
import PipelineScript.Main
import PipelineScript.Number.Binary64
import PipelineScript.Number.Digits
import PipelineScript.Number.Exact
import PipelineScript.Number.Layout
import PipelineScript.Number.Shortest
import PipelineScript.Proofs.Command.Complaints
import PipelineScript.Proofs.Command.Ending
import PipelineScript.Proofs.Command.Loading
import PipelineScript.Proofs.Description.Building
import PipelineScript.Proofs.Description.Options
import PipelineScript.Proofs.Description.Restriction
import PipelineScript.Proofs.Description.Storing
import PipelineScript.Proofs.Graph.Depths
import PipelineScript.Proofs.Graph.Described
import PipelineScript.Proofs.Graph.Edges
import PipelineScript.Proofs.Graph.LastEdges
import PipelineScript.Proofs.Graph.Order
import PipelineScript.Proofs.Graph.Part
import PipelineScript.Proofs.Graph.Resolution
import PipelineScript.Proofs.Graph.Restriction
import PipelineScript.Proofs.Graph.Tables
import PipelineScript.Proofs.Graph.Ties
import PipelineScript.Proofs.Graph.Waiting
import PipelineScript.Proofs.Graph.Walk
import PipelineScript.Proofs.Import.Directive
import PipelineScript.Proofs.Import.Flattening
import PipelineScript.Proofs.Import.History
import PipelineScript.Proofs.Import.ImportBlock
import PipelineScript.Proofs.Import.Meaning
import PipelineScript.Proofs.Import.Merging
import PipelineScript.Proofs.Import.Packages
import PipelineScript.Proofs.Import.Spelling
import PipelineScript.Proofs.Json.Faithful
import PipelineScript.Proofs.Json.Numerals
import PipelineScript.Proofs.Json.Parsing
import PipelineScript.Proofs.Json.Reading
import PipelineScript.Proofs.Json.Texts
import PipelineScript.Proofs.Json.Values
import PipelineScript.Proofs.Json.Yielding
import PipelineScript.Proofs.Lexis.Encoding
import PipelineScript.Proofs.Lexis.Indentation
import PipelineScript.Proofs.Lexis.Literals
import PipelineScript.Proofs.Lexis.Statements
import PipelineScript.Proofs.Lexis.Tokens
import PipelineScript.Proofs.Literal.Datum
import PipelineScript.Proofs.Literal.Reading
import PipelineScript.Proofs.Literal.Values
import PipelineScript.Proofs.Number.Digits
import PipelineScript.Proofs.Number.Rounding
import PipelineScript.Proofs.Number.Shortest
import PipelineScript.Proofs.Number.Signed
import PipelineScript.Proofs.Script.Blocks
import PipelineScript.Proofs.Script.Calls
import PipelineScript.Proofs.Script.Compiling
import PipelineScript.Proofs.Script.Course
import PipelineScript.Proofs.Script.DataFlow
import PipelineScript.Proofs.Script.Editing
import PipelineScript.Proofs.Script.Encoding
import PipelineScript.Proofs.Script.Generators
import PipelineScript.Proofs.Script.Header
import PipelineScript.Proofs.Script.ImportLines
import PipelineScript.Proofs.Script.Importing
import PipelineScript.Proofs.Script.Indentation
import PipelineScript.Proofs.Script.Layout
import PipelineScript.Proofs.Script.Matching
import PipelineScript.Proofs.Script.Naming
import PipelineScript.Proofs.Script.NodeNames
import PipelineScript.Proofs.Script.Nulls
import PipelineScript.Proofs.Script.Packages
import PipelineScript.Proofs.Script.Phases
import PipelineScript.Proofs.Script.Prologue
import PipelineScript.Proofs.Script.Raising
import PipelineScript.Proofs.Script.Rendering
import PipelineScript.Proofs.Script.Reordering
import PipelineScript.Proofs.Script.Reporting
import PipelineScript.Proofs.Script.Restricting
import PipelineScript.Proofs.Script.Rewiring
import PipelineScript.Proofs.Script.Run
import PipelineScript.Proofs.Script.Shadowing
import PipelineScript.Proofs.Script.Statistics
import PipelineScript.Proofs.Script.Strictness
import PipelineScript.Proofs.Script.Suites
import PipelineScript.Proofs.Script.Templates
import PipelineScript.Proofs.Script.Threading
import PipelineScript.Proofs.Script.Validating
import PipelineScript.Proofs.Script.Visiting
import PipelineScript.Proofs.Script.Working
import PipelineScript.Proofs.Script.WorkingCode
import PipelineScript.Proofs.Script.Writing
import PipelineScript.Proofs.Settings.JsonForm
import PipelineScript.Proofs.Settings.Saving
import PipelineScript.Proofs.Settings.TomlForm
import PipelineScript.Proofs.Toml.Faithful
import PipelineScript.Proofs.Toml.Filling
import PipelineScript.Proofs.Toml.Keys
import PipelineScript.Proofs.Toml.Lines
import PipelineScript.Proofs.Toml.Outlines
import PipelineScript.Proofs.Toml.Readers
import PipelineScript.Proofs.Toml.Texts
import PipelineScript.Script.Assembly
import PipelineScript.Script.Augmentation
import PipelineScript.Script.Code
import PipelineScript.Script.Compiler
import PipelineScript.Script.DataLoading
import PipelineScript.Script.Generator
import PipelineScript.Script.Literal
import PipelineScript.Script.NameTable
import PipelineScript.Script.Phase
import PipelineScript.Script.Registry
import PipelineScript.Script.Script
import PipelineScript.Script.Storage
import PipelineScript.Script.Training
import PipelineScript.Settings.Settings
import PipelineScript.Settings.Storage
import PipelineScript.Settings.TomlForm
import PipelineScript.Table
import PipelineScript.Text.Blank
import PipelineScript.Text.CaseTable
import PipelineScript.Text.Control
import PipelineScript.Text.Lines
import PipelineScript.Text.LowerCase
import PipelineScript.Text.Name
import PipelineScript.Text.Quoted
import PipelineScript.Text.VisibleTable
import PipelineScript.Toml.Codec
import PipelineScript.Toml.Decoder
import PipelineScript.Toml.Gaps
import PipelineScript.Toml.Outline
import PipelineScript.Toml.Parser
import PipelineScript.Toml.Printer
import PipelineScript.Toml.Quoted
import PipelineScript.Toml.Reader
import PipelineScript.Toml.Scalar
import PipelineScript.Toml.Standard
import PipelineScript.Toml.Tree
import PipelineScript.Toml.Value
import PipelineScript.Trace
