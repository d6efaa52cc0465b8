import ClassNaming.Cli.Arguments
import ClassNaming.Cli.Command
import ClassNaming.Cli.Guide
import ClassNaming.Cli.Run
import ClassNaming.Cli.Session
import ClassNaming.Cli.Tool
import ClassNaming.Cli.Usage
import ClassNaming.Decimal.Layout
import ClassNaming.Decimal.Reading
import ClassNaming.Decimal.Real64
import ClassNaming.Decimal.Shortest
import ClassNaming.Environment
import ClassNaming.Extract.Markup
import ClassNaming.Extract.Nesting
import ClassNaming.Extract.Selector
import ClassNaming.Extract.Words
import ClassNaming.Fault
import ClassNaming.Files.Path
import ClassNaming.Files.Tree
import ClassNaming.Json.Reader
import ClassNaming.Json.Record
import ClassNaming.Json.Writer
import ClassNaming.Lint.Setup
import ClassNaming.Log
import ClassNaming.Main
import ClassNaming.Naming.Catalog
import ClassNaming.Naming.Classify
import ClassNaming.Naming.Diagnosis
import ClassNaming.Naming.Grammar
import ClassNaming.Naming.Kind
import ClassNaming.Naming.Rules
import ClassNaming.Naming.Verdict
import ClassNaming.Pattern.Basic
import ClassNaming.Pattern.Error
import ClassNaming.Pattern.Flags
import ClassNaming.Pattern.Lexeme
import ClassNaming.Pattern.Matcher
import ClassNaming.Pattern.Reader
import ClassNaming.Pattern.Width
import ClassNaming.Proofs.Cli.Checking
import ClassNaming.Proofs.Decimal.Numerals
import ClassNaming.Proofs.Decimal.Rounding
import ClassNaming.Proofs.Decimal.Shortest
import ClassNaming.Proofs.Extract.ClosedBlock
import ClassNaming.Proofs.Extract.Lines
import ClassNaming.Proofs.Extract.Literals
import ClassNaming.Proofs.Extract.Names
import ClassNaming.Proofs.Extract.Pages
import ClassNaming.Proofs.Extract.PlainSheets
import ClassNaming.Proofs.Extract.Runs
import ClassNaming.Proofs.Extract.Sheets
import ClassNaming.Proofs.Extract.Tokens
import ClassNaming.Proofs.Extract.Words
import ClassNaming.Proofs.Fault
import ClassNaming.Proofs.Files.Blocked
import ClassNaming.Proofs.Files.Listing
import ClassNaming.Proofs.Files.Places
import ClassNaming.Proofs.Files.ReadBack
import ClassNaming.Proofs.Json.Documents
import ClassNaming.Proofs.Json.Layouts
import ClassNaming.Proofs.Json.Literals
import ClassNaming.Proofs.Lint.Rerun
import ClassNaming.Proofs.Lint.Updating
import ClassNaming.Proofs.Naming.CamelForms
import ClassNaming.Proofs.Naming.Exports
import ClassNaming.Proofs.Naming.Grammars
import ClassNaming.Proofs.Naming.MoreUtilities
import ClassNaming.Proofs.Naming.Overlap
import ClassNaming.Proofs.Naming.Parts
import ClassNaming.Proofs.Naming.Precedence
import ClassNaming.Proofs.Naming.Suggestions
import ClassNaming.Proofs.Naming.Underscores
import ClassNaming.Proofs.Naming.Utilities
import ClassNaming.Proofs.Pattern.Edges
import ClassNaming.Proofs.Pattern.Language
import ClassNaming.Proofs.Report.Cleaning
import ClassNaming.Proofs.Report.Rendering
import ClassNaming.Proofs.Report.Truncation
import ClassNaming.Proofs.Scan.Appearance
import ClassNaming.Proofs.Scan.Discovery
import ClassNaming.Proofs.Scan.Findings
import ClassNaming.Proofs.Scan.Grouping
import ClassNaming.Proofs.Scan.Strictness
import ClassNaming.Proofs.Settings.Codec
import ClassNaming.Proofs.Settings.Coherence
import ClassNaming.Proofs.Settings.Inheritance
import ClassNaming.Proofs.Settings.Lists
import ClassNaming.Proofs.Settings.Loading
import ClassNaming.Proofs.Settings.Masking
import ClassNaming.Proofs.Settings.Refusal
import ClassNaming.Proofs.Settings.Saving
import ClassNaming.Proofs.Settings.Showing
import ClassNaming.Proofs.Settings.Unwritten
import ClassNaming.Proofs.Source.Builtin
import ClassNaming.Proofs.Source.Registration
import ClassNaming.Proofs.Source.Reservations
import ClassNaming.Proofs.Source.Routing
import ClassNaming.Proofs.Table
import ClassNaming.Proofs.Tasks.Accounting
import ClassNaming.Proofs.Tasks.InTime
import ClassNaming.Proofs.Tasks.JobStates
import ClassNaming.Proofs.Tasks.Stalls
import ClassNaming.Proofs.Tasks.Turns
import ClassNaming.Proofs.Text.Bytes
import ClassNaming.Proofs.Text.Listed
import ClassNaming.Proofs.Text.LowerCase
import ClassNaming.Proofs.Value.Layering
import ClassNaming.Proofs.Value.Memory
import ClassNaming.Proofs.Value.Merging
import ClassNaming.Proofs.Value.Texts
import ClassNaming.Proofs.Yaml.Documents
import ClassNaming.Report.Encoding
import ClassNaming.Report.Hint
import ClassNaming.Report.Render
import ClassNaming.Report.Symbols
import ClassNaming.Report.Template
import ClassNaming.Scan.Discover
import ClassNaming.Scan.Report
import ClassNaming.Scan.Scanner
import ClassNaming.Settings.Basic
import ClassNaming.Settings.Codec
import ClassNaming.Settings.Layer
import ClassNaming.Settings.Manager
import ClassNaming.Settings.Merge
import ClassNaming.Source.Exclusion
import ClassNaming.Source.Registry
import ClassNaming.Table
import ClassNaming.Tasks.Orchestrator
import ClassNaming.Tasks.Pool
import ClassNaming.Tasks.Result
import ClassNaming.Tasks.Settings
import ClassNaming.Text.Blank
import ClassNaming.Text.Case
import ClassNaming.Text.Letter
import ClassNaming.Text.Printable
import ClassNaming.Text.Quoted
import ClassNaming.Text.Range
import ClassNaming.Text.Search
import ClassNaming.Text.Split
import ClassNaming.Text.Utf8
import ClassNaming.Text.Wrap
import ClassNaming.Value.Basic
import ClassNaming.Value.Shown
import ClassNaming.Value.Walk
import ClassNaming.Yaml.Codec
import ClassNaming.Yaml.Content
import ClassNaming.Yaml.Cursor
import ClassNaming.Yaml.Implicit
import ClassNaming.Yaml.Node
import ClassNaming.Yaml.ScalarText
import ClassNaming.Yaml.Token
import ClassNaming.Yaml.Writer
