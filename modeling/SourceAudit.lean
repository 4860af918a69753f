import SourceAudit.BuildInfo
import SourceAudit.Check.Catalog
import SourceAudit.Check.Coverage
import SourceAudit.Check.Guard
import SourceAudit.Check.Header
import SourceAudit.Check.Reading
import SourceAudit.CommandLine.Arguments
import SourceAudit.CommandLine.Given
import SourceAudit.CommandLine.Options
import SourceAudit.CommandLine.Program
import SourceAudit.CommandLine.Request
import SourceAudit.Discovery
import SourceAudit.FileTree.Basic
import SourceAudit.FileTree.Edit
import SourceAudit.FileTree.Resolve
import SourceAudit.FileTree.Walk
import SourceAudit.Finding
import SourceAudit.Json.Basic
import SourceAudit.Json.Reader
import SourceAudit.Json.Writer
import SourceAudit.Main
import SourceAudit.Markup.Element
import SourceAudit.Markup.Escaped
import SourceAudit.Number.Binary64
import SourceAudit.Number.Decimal
import SourceAudit.Number.Power
import SourceAudit.Number.Rounding
import SourceAudit.Number.Shown
import SourceAudit.Path
import SourceAudit.Proofs.Check.Access
import SourceAudit.Proofs.Check.Coverage
import SourceAudit.Proofs.Check.Deviation
import SourceAudit.Proofs.Check.Generated
import SourceAudit.Proofs.Check.Guard
import SourceAudit.Proofs.Check.GuardSymbol
import SourceAudit.Proofs.Check.Header
import SourceAudit.Proofs.Check.LongNumber
import SourceAudit.Proofs.Check.Opening
import SourceAudit.Proofs.Check.Percentage
import SourceAudit.Proofs.Check.Satisfiable
import SourceAudit.Proofs.Check.Sentence
import SourceAudit.Proofs.Check.Standard
import SourceAudit.Proofs.Check.SummaryRows
import SourceAudit.Proofs.Check.Template
import SourceAudit.Proofs.Check.Thresholds
import SourceAudit.Proofs.Check.TrailingBlanks
import SourceAudit.Proofs.Check.Verdict
import SourceAudit.Proofs.CommandLine.Entry
import SourceAudit.Proofs.CommandLine.Override
import SourceAudit.Proofs.CommandLine.Placement
import SourceAudit.Proofs.CommandLine.Reading
import SourceAudit.Proofs.CommandLine.Request
import SourceAudit.Proofs.Discovery
import SourceAudit.Proofs.FileTree.Contents
import SourceAudit.Proofs.FileTree.Descend
import SourceAudit.Proofs.FileTree.Graft
import SourceAudit.Proofs.FileTree.PlainWay
import SourceAudit.Proofs.FileTree.Walk
import SourceAudit.Proofs.Json.Reading
import SourceAudit.Proofs.Markup.Grammar
import SourceAudit.Proofs.Markup.Reading
import SourceAudit.Proofs.Number.Fixed
import SourceAudit.Proofs.Number.Nearest
import SourceAudit.Proofs.Number.Numeral
import SourceAudit.Proofs.Path.Descend
import SourceAudit.Proofs.Path.Names
import SourceAudit.Proofs.Path.Target
import SourceAudit.Proofs.Report.Agreement
import SourceAudit.Proofs.Report.Colors
import SourceAudit.Proofs.Report.Json
import SourceAudit.Proofs.Report.Junit
import SourceAudit.Proofs.Report.Suites
import SourceAudit.Proofs.Report.Terminal
import SourceAudit.Proofs.Results
import SourceAudit.Proofs.Run.BaseDirectory
import SourceAudit.Proofs.Run.Chunks
import SourceAudit.Proofs.Run.Crew
import SourceAudit.Proofs.Run.FailFast
import SourceAudit.Proofs.Run.Generated
import SourceAudit.Proofs.Run.GoingOn
import SourceAudit.Proofs.Run.Kinds
import SourceAudit.Proofs.Run.LineEnds
import SourceAudit.Proofs.Run.LostWorkers
import SourceAudit.Proofs.Run.Planned
import SourceAudit.Proofs.Run.Prefix
import SourceAudit.Proofs.Run.Reference
import SourceAudit.Proofs.Run.Sharing
import SourceAudit.Proofs.Run.Verdict
import SourceAudit.Proofs.Run.View
import SourceAudit.Proofs.Settings
import SourceAudit.Proofs.Settings.Document
import SourceAudit.Proofs.Settings.Fields
import SourceAudit.Proofs.Settings.Validation
import SourceAudit.Proofs.Text.Letter
import SourceAudit.Proofs.Text.LineEnds
import SourceAudit.Proofs.Text.Lines
import SourceAudit.Proofs.Text.Utf8
import SourceAudit.Proofs.Toml.Keys
import SourceAudit.Report.Basic
import SourceAudit.Report.Json
import SourceAudit.Report.Junit
import SourceAudit.Report.Terminal
import SourceAudit.Run.Basic
import SourceAudit.Run.Plan
import SourceAudit.Run.Schedule
import SourceAudit.Settings.Basic
import SourceAudit.Settings.Decode
import SourceAudit.Settings.Load
import SourceAudit.Text.Basic
import SourceAudit.Text.Blank
import SourceAudit.Text.DecimalDigit
import SourceAudit.Text.Letter
import SourceAudit.Text.Lines
import SourceAudit.Text.Pattern
import SourceAudit.Text.Quoted
import SourceAudit.Text.Unprintable
import SourceAudit.Text.Utf8
import SourceAudit.Time.Instant
import SourceAudit.Toml.Draft
import SourceAudit.Toml.Reader
import SourceAudit.Toml.Scalar
import SourceAudit.Toml.Value
