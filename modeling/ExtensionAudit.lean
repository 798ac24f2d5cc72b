import ExtensionAudit.Audit
import ExtensionAudit.CommandLine.Arguments
import ExtensionAudit.CommandLine.Run
import ExtensionAudit.CommandLine.Switch
import ExtensionAudit.Event.Extraction
import ExtensionAudit.Event.Files
import ExtensionAudit.FileTree.Basic
import ExtensionAudit.FileTree.Glob
import ExtensionAudit.Json.Basic
import ExtensionAudit.Json.Reader
import ExtensionAudit.Log
import ExtensionAudit.Main
import ExtensionAudit.Number.Binary64
import ExtensionAudit.Number.Numeral
import ExtensionAudit.Number.Shortest
import ExtensionAudit.Package.Base
import ExtensionAudit.Package.Check
import ExtensionAudit.Package.Contents
import ExtensionAudit.Package.Files
import ExtensionAudit.Package.Loader
import ExtensionAudit.Package.Name
import ExtensionAudit.Path
import ExtensionAudit.Php.Lexer
import ExtensionAudit.Php.Listing
import ExtensionAudit.Php.Literal
import ExtensionAudit.Php.Token
import ExtensionAudit.Proofs.Php.Grammar
import ExtensionAudit.Proofs.Php.Lexemes
import ExtensionAudit.Registry.Basic
import ExtensionAudit.Registry.BuiltIn
import ExtensionAudit.Registry.Discovery
import ExtensionAudit.Report.Basic
import ExtensionAudit.Report.Table
import ExtensionAudit.Rule.Basic
import ExtensionAudit.Rule.Context
import ExtensionAudit.Rule.DirectoryStructure
import ExtensionAudit.Rule.EventNames
import ExtensionAudit.Rule.ForbiddenCalls
import ExtensionAudit.Rule.PhpTags
import ExtensionAudit.Settings.Basic
import ExtensionAudit.Settings.File
import ExtensionAudit.Setup
import ExtensionAudit.Severity
import ExtensionAudit.SourceFile
import ExtensionAudit.Text.Base64
import ExtensionAudit.Text.Blank
import ExtensionAudit.Text.Case
import ExtensionAudit.Text.CaseRanges
import ExtensionAudit.Text.Digit
import ExtensionAudit.Text.Lines
import ExtensionAudit.Text.PrintableRanges
import ExtensionAudit.Text.Quoted
import ExtensionAudit.Text.Ranges
import ExtensionAudit.Text.Scan
import ExtensionAudit.Text.Utf8
import ExtensionAudit.Text.Word
import ExtensionAudit.Text.WordRanges
import ExtensionAudit.Value.Basic
import ExtensionAudit.Value.Moment
import ExtensionAudit.Yaml.Cursor
import ExtensionAudit.Yaml.Document
import ExtensionAudit.Yaml.Fault
import ExtensionAudit.Yaml.Lexer
import ExtensionAudit.Yaml.Node
import ExtensionAudit.Yaml.Scalar
import ExtensionAudit.Yaml.ScalarText
import ExtensionAudit.Yaml.Tag
import ExtensionAudit.Yaml.Token
import ExtensionAudit.Proofs.Php.Patterns
import ExtensionAudit.Proofs.Php.Division
import ExtensionAudit.Proofs.Event.Grammar
import ExtensionAudit.Proofs.Audit.Schedule
import ExtensionAudit.Proofs.Audit.Independence
import ExtensionAudit.Proofs.Php.Lookahead
import ExtensionAudit.Proofs.Event.Search
import ExtensionAudit.Proofs.Event.Prefix
import ExtensionAudit.Proofs.Php.Region
import ExtensionAudit.Proofs.Event.Region
import ExtensionAudit.Proofs.Event.Concatenation
import ExtensionAudit.Proofs.Text.LineEnds
import ExtensionAudit.Proofs.Php.LineEnds
import ExtensionAudit.Proofs.Event.LineEnds
import ExtensionAudit.Proofs.Rule.Announcement
import ExtensionAudit.Proofs.Audit.Announcement
import ExtensionAudit.Proofs.FileTree.Placement
import ExtensionAudit.Proofs.FileTree.Search
import ExtensionAudit.Proofs.FileTree.Walk
import ExtensionAudit.Proofs.Package.Files
import ExtensionAudit.Proofs.Package.Loading
import ExtensionAudit.Proofs.Settings.Load
import ExtensionAudit.Proofs.Package.Faults
import ExtensionAudit.Proofs.Package.Listing
import ExtensionAudit.Proofs.Package.Progress
import ExtensionAudit.Proofs.Text.Lines
import ExtensionAudit.Proofs.Event.LineNumbers
import ExtensionAudit.Proofs.FileTree.Agreement
import ExtensionAudit.Proofs.FileTree.Reach
import ExtensionAudit.Proofs.Package.Base
import ExtensionAudit.Proofs.Package.Agreement
import ExtensionAudit.Proofs.Package.StrayLinks
import ExtensionAudit.Proofs.Package.VersionControl
import ExtensionAudit.Proofs.Package.Sources
import ExtensionAudit.Proofs.Php.Literal
import ExtensionAudit.Proofs.Registry.Making
import ExtensionAudit.Proofs.Event.Arrival
import ExtensionAudit.Proofs.Event.Name
import ExtensionAudit.Proofs.Registry.History
import ExtensionAudit.Proofs.Text.Case
import ExtensionAudit.Proofs.Rule.ForbiddenCalls
import ExtensionAudit.Proofs.Rule.CallSites
import ExtensionAudit.Proofs.Package.RelativePaths
import ExtensionAudit.Proofs.Package.Manifest
import ExtensionAudit.Proofs.Report.Ranking
import ExtensionAudit.Proofs.Rule.EventNames
import ExtensionAudit.Proofs.Package.OneRule
import ExtensionAudit.Proofs.Package.PartialEvents
import ExtensionAudit.Proofs.Rule.Wording
import ExtensionAudit.Proofs.Package.RequiredFiles
import ExtensionAudit.Proofs.Text.Words
import ExtensionAudit.Proofs.Rule.PhpTags
import ExtensionAudit.Proofs.Registry.Discovery
import ExtensionAudit.Proofs.Settings.Document
import ExtensionAudit.Proofs.Settings.Schema
import ExtensionAudit.Proofs.Text.FinalSigma
import ExtensionAudit.Proofs.Rule.NamePrefix
import ExtensionAudit.Proofs.Rule.CommentedLines
import ExtensionAudit.Proofs.Text.Positions
import ExtensionAudit.Proofs.Php.Positions
import ExtensionAudit.Proofs.Event.Progress
