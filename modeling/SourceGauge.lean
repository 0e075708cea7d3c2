import SourceGauge.Command
import SourceGauge.Command.Arguments
import SourceGauge.Coupling.Accessor
import SourceGauge.Coupling.Analyzer
import SourceGauge.Coupling.DeclaredType
import SourceGauge.Coupling.Import
import SourceGauge.Coupling.Measures
import SourceGauge.Coupling.Profile
import SourceGauge.Coupling.Resolver
import SourceGauge.Coupling.Usage
import SourceGauge.Decimal.Binary
import SourceGauge.Decimal.Shortest
import SourceGauge.Disk
import SourceGauge.FileTree
import SourceGauge.Json
import SourceGauge.Json.Printer
import SourceGauge.Json.Reader
import SourceGauge.Json.Token
import SourceGauge.Language
import SourceGauge.Language.Detect
import SourceGauge.Language.Grammars
import SourceGauge.Main
import SourceGauge.Metric
import SourceGauge.Metric.Comments
import SourceGauge.Metric.Measure
import SourceGauge.Metric.Nesting
import SourceGauge.Metric.Statements
import SourceGauge.Path
import SourceGauge.Progress
import SourceGauge.Query.Cache
import SourceGauge.Query.Captures
import SourceGauge.Query.Pattern
import SourceGauge.Query.Reader
import SourceGauge.Query.Statement
import SourceGauge.Query.Token
import SourceGauge.Registry
import SourceGauge.Registry.Builtin
import SourceGauge.Registry.Document
import SourceGauge.Report
import SourceGauge.Report.Output
import SourceGauge.Run
import SourceGauge.Settings
import SourceGauge.Syntax.Document
import SourceGauge.Syntax.Node
import SourceGauge.Text.Blank
import SourceGauge.Text.Letters
import SourceGauge.Text.Lines
import SourceGauge.Text.Split
import SourceGauge.Text.WordChar
import SourceGauge.Toml
import SourceGauge.Toml.Quoted
import SourceGauge.Toml.Reader
import SourceGauge.Toml.Word
import SourceGauge.Workspace
import SourceGauge.Proofs.Path.Order
import SourceGauge.Proofs.Query.Order
import SourceGauge.Proofs.Coupling.CollectedFile
import SourceGauge.Proofs.Coupling.Compiled
import SourceGauge.Proofs.Coupling.Reachable
import SourceGauge.Proofs.Coupling.Growth
import SourceGauge.Proofs.Coupling.JoinedOnce
import SourceGauge.Proofs.Coupling.DeclaredEnds
import SourceGauge.Proofs.Coupling.ChainSound
import SourceGauge.Proofs.Coupling.ChainComplete
import SourceGauge.Proofs.Coupling.ChainsApart
import SourceGauge.Proofs.Coupling.CollectionOrder
import SourceGauge.Proofs.Coupling.LookUp
import SourceGauge.Proofs.Coupling.LanguagesApart
import SourceGauge.Proofs.Coupling.BaseNames
import SourceGauge.Proofs.Coupling.UseOrder
import SourceGauge.Proofs.Coupling.Visits
import SourceGauge.Proofs.Text.Split
import SourceGauge.Proofs.Coupling.VisibleNames
import SourceGauge.Proofs.Coupling.FileTypes
import SourceGauge.Proofs.Coupling.FurtherFile
import SourceGauge.Proofs.Query.Written
import SourceGauge.Proofs.Language.OwnGrammars
import SourceGauge.Proofs.Query.SharedCache
import SourceGauge.Proofs.Metric.Value
import SourceGauge.Proofs.Metric.Isolation
import SourceGauge.Proofs.Run.Session
import SourceGauge.Proofs.Decimal.Nearest
import SourceGauge.Proofs.Text.Within
import SourceGauge.Proofs.Coupling.FileCounts
import SourceGauge.Proofs.Command.ExitCode
import SourceGauge.Proofs.Path.Below
import SourceGauge.Proofs.FileTree.Discovery
import SourceGauge.Proofs.Run.Findings
import SourceGauge.Proofs.Run.RelativePaths
import SourceGauge.Proofs.Report.Entries
import SourceGauge.Proofs.Report.Integrity
import SourceGauge.Proofs.Report.Target
import SourceGauge.Proofs.Syntax.Layout
import SourceGauge.Proofs.Query.Fits
import SourceGauge.Proofs.Coupling.KindRules
import SourceGauge.Proofs.Coupling.Outline
import SourceGauge.Proofs.Coupling.ScannedTypes
import SourceGauge.Proofs.Coupling.TreeTypes
import SourceGauge.Proofs.Coupling.DeclaredMembers
import SourceGauge.Proofs.Coupling.Members
import SourceGauge.Proofs.Coupling.EdgeKinds
import SourceGauge.Proofs.Coupling.RecordedNames
import SourceGauge.Proofs.Coupling.FurtherImport
import SourceGauge.Proofs.Coupling.AliasedChains
import SourceGauge.Proofs.Coupling.AbsoluteNames
import SourceGauge.Proofs.Coupling.WrittenChains
import SourceGauge.Proofs.Metric.CodeRows
import SourceGauge.Proofs.Query.Lines
import SourceGauge.Proofs.Metric.CommentNodes
import SourceGauge.Proofs.Text.Places
import SourceGauge.Proofs.Metric.CommentRows
import SourceGauge.Proofs.Query.Pieces
import SourceGauge.Proofs.Metric.Counts
import SourceGauge.Proofs.Query.Tells
import SourceGauge.Proofs.Metric.CaseLabels
import SourceGauge.Proofs.Metric.NestingWays
import SourceGauge.Proofs.Query.Completed
import SourceGauge.Proofs.Metric.TokenRows
import SourceGauge.Proofs.Metric.RawLines
import SourceGauge.Proofs.Metric.Keywords
import SourceGauge.Proofs.Query.Picks
import SourceGauge.Proofs.Metric.Arms
import SourceGauge.Proofs.Metric.Constructs
import SourceGauge.Proofs.Keyed
import SourceGauge.Proofs.Path.Rest
import SourceGauge.Proofs.Path.LastStep
import SourceGauge.Proofs.Language.Headers
import SourceGauge.Proofs.FileTree.FilesBelow
import SourceGauge.Proofs.Coupling.KeptTypes
import SourceGauge.Proofs.Json.RoundTrip
import SourceGauge.Proofs.Registry.Acceptable
import SourceGauge.Proofs.Registry.Loading
