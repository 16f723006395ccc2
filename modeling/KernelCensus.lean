import KernelCensus.Census.Basic
import KernelCensus.Census.Run
import KernelCensus.Codec.Census
import KernelCensus.Codec.Config
import KernelCensus.Codec.Measurement
import KernelCensus.Codec.Report
import KernelCensus.Codec.Source
import KernelCensus.Command.Arguments
import KernelCensus.Command.Basic
import KernelCensus.Command.Exit
import KernelCensus.Command.Info
import KernelCensus.Command.Init
import KernelCensus.Command.Report
import KernelCensus.Command.Run
import KernelCensus.Command.Scan
import KernelCensus.Config.Basic
import KernelCensus.Config.File
import KernelCensus.Config.Fingerprint
import KernelCensus.Config.Yaml
import KernelCensus.Declaration.Attribute
import KernelCensus.Declaration.Basic
import KernelCensus.Declaration.Keyword
import KernelCensus.Declaration.Parentheses
import KernelCensus.Digest.Sha256
import KernelCensus.Extraction
import KernelCensus.Files.Disk
import KernelCensus.Files.Error
import KernelCensus.Files.Tree
import KernelCensus.Json.Basic
import KernelCensus.Json.Decode
import KernelCensus.Json.Reader
import KernelCensus.Json.Writer
import KernelCensus.Log.Basic
import KernelCensus.Log.Context
import KernelCensus.Log.Tokens
import KernelCensus.Main
import KernelCensus.Markers
import KernelCensus.Measurement
import KernelCensus.Metric
import KernelCensus.Name
import KernelCensus.Notice
import KernelCensus.Number.Binary64
import KernelCensus.Number.Natural
import KernelCensus.Path
import KernelCensus.Precision
import KernelCensus.Project.Layout
import KernelCensus.Project.Logs
import KernelCensus.Project.Open
import KernelCensus.Project.Plan
import KernelCensus.Project.Problem
import KernelCensus.Project.Sources
import KernelCensus.Proofs.Census.Artifacts
import KernelCensus.Proofs.Census.Attribution
import KernelCensus.Proofs.Census.Isolation
import KernelCensus.Proofs.Census.Naming
import KernelCensus.Proofs.Census.Order
import KernelCensus.Proofs.Census.Sources
import KernelCensus.Proofs.Census.UnknownLabel
import KernelCensus.Proofs.Codec.Attribution
import KernelCensus.Proofs.Codec.Config
import KernelCensus.Proofs.Codec.Records
import KernelCensus.Proofs.Command.Preparation
import KernelCensus.Proofs.Command.Report
import KernelCensus.Proofs.Declaration.Ahead
import KernelCensus.Proofs.Declaration.Balance
import KernelCensus.Proofs.Declaration.Cursor
import KernelCensus.Proofs.Declaration.Erasure
import KernelCensus.Proofs.Declaration.Layout
import KernelCensus.Proofs.Declaration.Pieces
import KernelCensus.Proofs.Declaration.Reading
import KernelCensus.Proofs.Declaration.Remainder
import KernelCensus.Proofs.Declaration.Removal
import KernelCensus.Proofs.Declaration.Spelling
import KernelCensus.Proofs.Extraction.Accounting
import KernelCensus.Proofs.Extraction.Blocks
import KernelCensus.Proofs.Extraction.Breaks
import KernelCensus.Proofs.Extraction.Captures
import KernelCensus.Proofs.Extraction.Containment
import KernelCensus.Proofs.Extraction.Lines
import KernelCensus.Proofs.Extraction.Naming
import KernelCensus.Proofs.Extraction.Normal
import KernelCensus.Proofs.Extraction.Phases
import KernelCensus.Proofs.Extraction.Signatures
import KernelCensus.Proofs.Extraction.Slices
import KernelCensus.Proofs.Files.Change
import KernelCensus.Proofs.Files.Contents
import KernelCensus.Proofs.Files.Entries
import KernelCensus.Proofs.Files.Join
import KernelCensus.Proofs.Files.Listing
import KernelCensus.Proofs.Files.Walk
import KernelCensus.Proofs.Firsts
import KernelCensus.Proofs.Json.Quoted
import KernelCensus.Proofs.Json.Rearrangement
import KernelCensus.Proofs.Json.Spelling
import KernelCensus.Proofs.Log.Context
import KernelCensus.Proofs.Log.Grammar
import KernelCensus.Proofs.Log.Keys
import KernelCensus.Proofs.Log.Metrics
import KernelCensus.Proofs.Log.Sites
import KernelCensus.Proofs.Log.Tokens
import KernelCensus.Proofs.Log.Unfilled
import KernelCensus.Proofs.Log.Values
import KernelCensus.Proofs.Name
import KernelCensus.Proofs.Number.Binary64
import KernelCensus.Proofs.Number.Decimal
import KernelCensus.Proofs.Path
import KernelCensus.Proofs.Path.Order
import KernelCensus.Proofs.Project.Collection
import KernelCensus.Proofs.Project.Discovery
import KernelCensus.Proofs.Project.Loading
import KernelCensus.Proofs.Project.Specification
import KernelCensus.Proofs.Project.Work
import KernelCensus.Proofs.Registry.FirstWins
import KernelCensus.Proofs.Registry.History
import KernelCensus.Proofs.Registry.Index
import KernelCensus.Proofs.Registry.Order
import KernelCensus.Proofs.Registry.Places
import KernelCensus.Proofs.Repair
import KernelCensus.Proofs.Report.Csv
import KernelCensus.Proofs.Report.Partition
import KernelCensus.Proofs.Report.Reading
import KernelCensus.Proofs.Report.Summary
import KernelCensus.Proofs.Text.Cut
import KernelCensus.Proofs.Text.Lines
import KernelCensus.Proofs.Text.Offsets
import KernelCensus.Proofs.Text.Squeezed
import KernelCensus.Proofs.Text.Utf8
import KernelCensus.Proofs.Text.Words
import KernelCensus.Registry
import KernelCensus.Repair
import KernelCensus.Report.Basic
import KernelCensus.Report.Csv
import KernelCensus.Report.Summary
import KernelCensus.Source
import KernelCensus.Text.Basic
import KernelCensus.Text.Utf8
import KernelCensus.Unicode.Alphabetic
import KernelCensus.Unicode.CaseFolding
import KernelCensus.Unicode.Classes
import KernelCensus.Unicode.Mark
import KernelCensus.Unicode.Number
import KernelCensus.Unicode.Ranges
import KernelCensus.Version
import KernelCensus.Yaml.Decode
import KernelCensus.Yaml.Node
import KernelCensus.Yaml.Position
import KernelCensus.Yaml.Scalar
import KernelCensus.Yaml.Tag
import KernelCensus.Yaml.Token
