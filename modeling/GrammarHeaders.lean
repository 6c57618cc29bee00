import GrammarHeaders.Accessor
import GrammarHeaders.Cause
import GrammarHeaders.Checkout
import GrammarHeaders.CommandLine.Arguments
import GrammarHeaders.CommandLine.Commands
import GrammarHeaders.CommandLine.Manual
import GrammarHeaders.CommandLine.Run
import GrammarHeaders.Config.Basic
import GrammarHeaders.Config.Load
import GrammarHeaders.Config.Schema
import GrammarHeaders.Declaration
import GrammarHeaders.Diagnostic
import GrammarHeaders.Discovery
import GrammarHeaders.Disk
import GrammarHeaders.Export
import GrammarHeaders.Factory
import GrammarHeaders.Failure
import GrammarHeaders.Generator
import GrammarHeaders.Header
import GrammarHeaders.Log
import GrammarHeaders.Main
import GrammarHeaders.Marker
import GrammarHeaders.ModuleName
import GrammarHeaders.Number.Binary64
import GrammarHeaders.Patching
import GrammarHeaders.Path
import GrammarHeaders.Pipeline
import GrammarHeaders.Proofs.AccessorLines
import GrammarHeaders.Proofs.AccessorShape
import GrammarHeaders.Proofs.Accounting
import GrammarHeaders.Proofs.Agreement
import GrammarHeaders.Proofs.Annotation
import GrammarHeaders.Proofs.BlockPlacement
import GrammarHeaders.Proofs.BoundHeaders
import GrammarHeaders.Proofs.Checkouts
import GrammarHeaders.Proofs.Conclusion
import GrammarHeaders.Proofs.ConfigLayers
import GrammarHeaders.Proofs.Confinement
import GrammarHeaders.Proofs.Cutting
import GrammarHeaders.Proofs.DeclarationGrammar
import GrammarHeaders.Proofs.DefinitionBlock
import GrammarHeaders.Proofs.DefinitionOrder
import GrammarHeaders.Proofs.Destinations
import GrammarHeaders.Proofs.DirectoryNames
import GrammarHeaders.Proofs.DiskChanges
import GrammarHeaders.Proofs.Excision
import GrammarHeaders.Proofs.ExportedHeaders
import GrammarHeaders.Proofs.ExtractionFaults
import GrammarHeaders.Proofs.FactoryExport
import GrammarHeaders.Proofs.FailedGrammars
import GrammarHeaders.Proofs.FileWalk
import GrammarHeaders.Proofs.Footprint
import GrammarHeaders.Proofs.GeneratorArguments
import GrammarHeaders.Proofs.GrammarSources
import GrammarHeaders.Proofs.HeaderCopies
import GrammarHeaders.Proofs.HeaderPlaces
import GrammarHeaders.Proofs.LineShapes
import GrammarHeaders.Proofs.LineSplitting
import GrammarHeaders.Proofs.LinkedPaths
import GrammarHeaders.Proofs.MarkerOffsets
import GrammarHeaders.Proofs.MarkerSearch
import GrammarHeaders.Proofs.ModuleNames
import GrammarHeaders.Proofs.ModuleRuns
import GrammarHeaders.Proofs.OriginalHeaders
import GrammarHeaders.Proofs.PatchedTrees
import GrammarHeaders.Proofs.PathOrder
import GrammarHeaders.Proofs.PathsBelow
import GrammarHeaders.Proofs.Reannotation
import GrammarHeaders.Proofs.RepeatedExport
import GrammarHeaders.Proofs.RepeatedModules
import GrammarHeaders.Proofs.RepeatedPatching
import GrammarHeaders.Proofs.RepeatedRuns
import GrammarHeaders.Proofs.RepeatedSmokeTest
import GrammarHeaders.Proofs.Repetition
import GrammarHeaders.Proofs.Requests
import GrammarHeaders.Proofs.Resolution
import GrammarHeaders.Proofs.RootStage
import GrammarHeaders.Proofs.Schedules
import GrammarHeaders.Proofs.SeveralPrefixes
import GrammarHeaders.Proofs.SingleFactory
import GrammarHeaders.Proofs.SmokeTestAccessor
import GrammarHeaders.Proofs.StageRelations
import GrammarHeaders.Proofs.Stages
import GrammarHeaders.Proofs.TableOverlay
import GrammarHeaders.Proofs.TreeGrowth
import GrammarHeaders.Proofs.Turns
import GrammarHeaders.Proofs.UniformEndings
import GrammarHeaders.Proofs.UniqueKeys
import GrammarHeaders.Proofs.ValidSpans
import GrammarHeaders.Proofs.WorkHeaders
import GrammarHeaders.Proofs.WorkSteps
import GrammarHeaders.Publishing
import GrammarHeaders.Request
import GrammarHeaders.Session
import GrammarHeaders.Shell.Arithmetic
import GrammarHeaders.Shell.Builtin.Directory
import GrammarHeaders.Shell.Builtin.Jobs
import GrammarHeaders.Shell.Builtin.Printing
import GrammarHeaders.Shell.Builtin.Read
import GrammarHeaders.Shell.Builtin.Settings
import GrammarHeaders.Shell.Builtin.Signals
import GrammarHeaders.Shell.Builtin.Test
import GrammarHeaders.Shell.Bytes
import GrammarHeaders.Shell.Control
import GrammarHeaders.Shell.Evaluation
import GrammarHeaders.Shell.Expansion
import GrammarHeaders.Shell.Format
import GrammarHeaders.Shell.Glob
import GrammarHeaders.Shell.Host
import GrammarHeaders.Shell.Image
import GrammarHeaders.Shell.Installation
import GrammarHeaders.Shell.Lookup
import GrammarHeaders.Shell.Mode
import GrammarHeaders.Shell.Parser.Command
import GrammarHeaders.Shell.Parser.Token
import GrammarHeaders.Shell.Parser.Word
import GrammarHeaders.Shell.Pattern
import GrammarHeaders.Shell.Printf
import GrammarHeaders.Shell.Program
import GrammarHeaders.Shell.Redirection
import GrammarHeaders.Shell.Regex
import GrammarHeaders.Shell.State
import GrammarHeaders.Shell.Syntax
import GrammarHeaders.Shell.Task
import GrammarHeaders.Shell.Utility.Columns
import GrammarHeaders.Shell.Utility.Copying
import GrammarHeaders.Shell.Utility.Directory
import GrammarHeaders.Shell.Utility.Expression
import GrammarHeaders.Shell.Utility.Find
import GrammarHeaders.Shell.Utility.Grep
import GrammarHeaders.Shell.Utility.Lines
import GrammarHeaders.Shell.Utility.Listing
import GrammarHeaders.Shell.Utility.Options
import GrammarHeaders.Shell.Utility.Printing
import GrammarHeaders.Shell.Utility.Quoting
import GrammarHeaders.Shell.Utility.Running
import GrammarHeaders.Shell.Utility.Sed.Run
import GrammarHeaders.Shell.Utility.Sed.Script
import GrammarHeaders.Shell.Utility.Sorting
import GrammarHeaders.Shell.Utility.Table
import GrammarHeaders.SmokeTest
import GrammarHeaders.Text.Basic
import GrammarHeaders.Text.Folding
import GrammarHeaders.Text.Line
import GrammarHeaders.Text.Upper
import GrammarHeaders.Text.Utf8
import GrammarHeaders.Text.Whitespace
import GrammarHeaders.Text.Word
import GrammarHeaders.Toml.Document
import GrammarHeaders.Toml.Moment
import GrammarHeaders.Toml.Reading
import GrammarHeaders.Toml.Scalar
import GrammarHeaders.Toml.Value
import GrammarHeaders.Tree
import GrammarHeaders.Workers
