import ClassCensus.Catalog.Basic
import ClassCensus.Catalog.Choice
import ClassCensus.Catalog.Memory
import ClassCensus.Catalog.Modules
import ClassCensus.Catalog.Reflection
import ClassCensus.Census
import ClassCensus.Digest.Sha256
import ClassCensus.Failure
import ClassCensus.Fault
import ClassCensus.Files.Access
import ClassCensus.Files.Canonical
import ClassCensus.Files.Errno
import ClassCensus.Files.Making
import ClassCensus.Files.Spelling
import ClassCensus.Files.System
import ClassCensus.Files.Tree
import ClassCensus.Filter
import ClassCensus.Fingerprint
import ClassCensus.Identity
import ClassCensus.Json.Reader
import ClassCensus.Json.Writer
import ClassCensus.Listing
import ClassCensus.Log.Book
import ClassCensus.Log.Entry
import ClassCensus.Modules.Builtin
import ClassCensus.Modules.Lineage
import ClassCensus.Modules.Loading
import ClassCensus.Modules.Space
import ClassCensus.Notice
import ClassCensus.Number.Double
import ClassCensus.Number.Shortest
import ClassCensus.Record
import ClassCensus.Registry
import ClassCensus.Roots
import ClassCensus.Scanner
import ClassCensus.Settings.Check
import ClassCensus.Settings.Dump
import ClassCensus.Settings.Environment
import ClassCensus.Settings.Load
import ClassCensus.Settings.Logging
import ClassCensus.Settings.Scanner
import ClassCensus.Settings.Verdict
import ClassCensus.Source.Header
import ClassCensus.Source.Line
import ClassCensus.Source.Opening
import ClassCensus.Source.Reading
import ClassCensus.Table
import ClassCensus.Text.Basic
import ClassCensus.Text.Blank
import ClassCensus.Text.Encoding
import ClassCensus.Text.Identifier
import ClassCensus.Text.Lines
import ClassCensus.Text.Lowercase
import ClassCensus.Text.Printable
import ClassCensus.Text.Quoted
import ClassCensus.Text.Ranges
import ClassCensus.Text.Sorted
import ClassCensus.Text.Word
import ClassCensus.Value.Basic
import ClassCensus.Value.Merge
import ClassCensus.Value.Shown
import ClassCensus.Walk
import ClassCensus.World
import ClassCensus.Yaml.Cursor
import ClassCensus.Yaml.Node
import ClassCensus.Yaml.Scalar
import ClassCensus.Yaml.Token
import ClassCensus.Yaml.Value
import ClassCensus.Proofs.Listing
import ClassCensus.Proofs.Roll
import ClassCensus.Proofs.Harvest
import ClassCensus.Proofs.Denial
import ClassCensus.Proofs.Tree
import ClassCensus.Proofs.Walk
import ClassCensus.Proofs.Passing
import ClassCensus.Proofs.Calls
import ClassCensus.Proofs.Retry
import ClassCensus.Proofs.SideTasks
import ClassCensus.Proofs.SideBySide
import ClassCensus.Proofs.Lookup
import ClassCensus.Proofs.Spelling
import ClassCensus.Proofs.Canonical
import ClassCensus.Proofs.Sources
import ClassCensus.Proofs.RootOrder
import ClassCensus.Proofs.Attributes
import ClassCensus.Proofs.Openings
import ClassCensus.Proofs.Stripping
import ClassCensus.Proofs.Reading
import ClassCensus.Proofs.WalkFailures
import ClassCensus.Proofs.SameFile
import ClassCensus.Proofs.Settling
import ClassCensus.Proofs.Findings
import ClassCensus.Proofs.Upkeep
import ClassCensus.Proofs.ScanId
import ClassCensus.Proofs.Requirements
import ClassCensus.Proofs.Merge
import ClassCensus.Proofs.Keyed
import ClassCensus.Proofs.Lowercase
import ClassCensus.Proofs.Variables
import ClassCensus.Proofs.Precedence
import ClassCensus.Proofs.Imports
import ClassCensus.Proofs.CatalogLaws
import ClassCensus.Proofs.Steps
import ClassCensus.Proofs.Rescan
import ClassCensus.Proofs.Selection
import ClassCensus.Proofs.Loaded
import ClassCensus.Proofs.LoadFailures
import ClassCensus.Proofs.Identity
import ClassCensus.Proofs.Normal
import ClassCensus.Proofs.Preorder
import ClassCensus.Proofs.Growth
import ClassCensus.Proofs.Delivery
import ClassCensus.Proofs.Header
import ClassCensus.Proofs.Asking
import ClassCensus.Proofs.Tour
import ClassCensus.Proofs.Confirmation
import ClassCensus.Proofs.Overlay
import ClassCensus.Proofs.Revalidation
import ClassCensus.Proofs.Lineage
import ClassCensus.Proofs.MadeClasses
import ClassCensus.Proofs.Subtypes
import ClassCensus.Proofs.StopTokens
import ClassCensus.Proofs.Extensions
import ClassCensus.Proofs.Utf8
import ClassCensus.Proofs.Utf16
import ClassCensus.Proofs.Decoding
import ClassCensus.Proofs.LineEnds
import ClassCensus.Proofs.Records
import ClassCensus.Proofs.RootSet
import ClassCensus.Proofs.Clerks
import ClassCensus.Proofs.Remembering
import ClassCensus.Proofs.RoundTrips
import ClassCensus.Proofs.CanonicalLines
import ClassCensus.Proofs.Documents
import ClassCensus.Proofs.Hooks
