import WindsAloft.Binary64
import WindsAloft.Codec.Record
import WindsAloft.Codec.Settings
import WindsAloft.Codec.Wind
import WindsAloft.Command
import WindsAloft.CommandLine.Basic
import WindsAloft.CommandLine.Given
import WindsAloft.CommandLine.Parameter
import WindsAloft.CommandLine.Reading
import WindsAloft.Decimal.Basic
import WindsAloft.Decimal.Notation
import WindsAloft.Decimal.Numeral
import WindsAloft.Decimal.Rounded
import WindsAloft.Decimal.Shortest
import WindsAloft.Document.Basic
import WindsAloft.Document.Fault
import WindsAloft.Document.Layout
import WindsAloft.Environment.Assignment
import WindsAloft.Environment.Basic
import WindsAloft.Environment.Line
import WindsAloft.Estimate
import WindsAloft.Eviction
import WindsAloft.Files
import WindsAloft.History
import WindsAloft.Json.Source
import WindsAloft.Json.Token
import WindsAloft.Json.Value
import WindsAloft.Kernel
import WindsAloft.Loading
import WindsAloft.Log.Directive
import WindsAloft.Log.Entry
import WindsAloft.Log.Filter
import WindsAloft.Log.Pattern
import WindsAloft.Main
import WindsAloft.Overview
import WindsAloft.Record
import WindsAloft.Replay
import WindsAloft.Report
import WindsAloft.Sample
import WindsAloft.Saturating
import WindsAloft.Session
import WindsAloft.Settings
import WindsAloft.Signal
import WindsAloft.Statistics
import WindsAloft.Store
import WindsAloft.Tally
import WindsAloft.Text.Alphanumeric
import WindsAloft.Text.Blank
import WindsAloft.Text.Hex
import WindsAloft.Text.Pieces
import WindsAloft.Text.Printable
import WindsAloft.Text.Quoted
import WindsAloft.Text.Ranges
import WindsAloft.Text.Scanner
import WindsAloft.Text.Slice
import WindsAloft.Text.Utf8
import WindsAloft.Toml.Scalar
import WindsAloft.Toml.Statement
import WindsAloft.Toml.Table
import WindsAloft.Toml.Token
import WindsAloft.Trace
import WindsAloft.Verdict
import WindsAloft.Wind
import WindsAloft.Proofs.Insertion
import WindsAloft.Proofs.Ledger
import WindsAloft.Proofs.Course
import WindsAloft.Proofs.Replaying
import WindsAloft.Proofs.Binary64.Nearest
import WindsAloft.Proofs.Binary64.Packed
import WindsAloft.Proofs.Binary64.Rounded
import WindsAloft.Proofs.Binary64.Operations
import WindsAloft.Proofs.Binary64.Sums
import WindsAloft.Proofs.Binary64.Order
import WindsAloft.Proofs.Binary64.Values
import WindsAloft.Proofs.Binary64.Signs
import WindsAloft.Proofs.Binary64.Whole
import WindsAloft.Proofs.Binary64.Levels
import WindsAloft.Proofs.Binary64.Bounded
import WindsAloft.Proofs.Binary64.Distances
import WindsAloft.Proofs.Binary64.Steps
import WindsAloft.Proofs.Binary64.Restored
import WindsAloft.Proofs.Binary64.HalfSteps
import WindsAloft.Proofs.Binary64.HalfUp
import WindsAloft.Proofs.Statistics.Exact
import WindsAloft.Proofs.Statistics.Doubles
import WindsAloft.Proofs.Extremes
import WindsAloft.Proofs.Bearing
import WindsAloft.Proofs.Weights
import WindsAloft.Proofs.Rules
import WindsAloft.Proofs.Weighing
import WindsAloft.Proofs.Nearness
import WindsAloft.Proofs.WeightedMean
import WindsAloft.Proofs.Totals
import WindsAloft.Proofs.Headroom
import WindsAloft.Proofs.Products
import WindsAloft.Proofs.Influence
import WindsAloft.Proofs.SingleSample
import WindsAloft.Proofs.Improvement
import WindsAloft.Proofs.Counting
import WindsAloft.Proofs.Proportions
import WindsAloft.Proofs.Checked
import WindsAloft.Proofs.Selection
import WindsAloft.Proofs.Ageing
import WindsAloft.Proofs.Rotation
import WindsAloft.Proofs.Translation
import WindsAloft.Proofs.Windless
import WindsAloft.Proofs.Encoding
import WindsAloft.Proofs.Scanner
import WindsAloft.Proofs.Tracing
import WindsAloft.Proofs.Comments
import WindsAloft.Proofs.Decimal.Value
import WindsAloft.Proofs.Decimal.Written
import WindsAloft.Proofs.Document.Members
import WindsAloft.Proofs.Document.Content
import WindsAloft.Proofs.Document.Given
import WindsAloft.Proofs.Document.Required
import WindsAloft.Proofs.Document.Shown
import WindsAloft.Proofs.Codec.Wind
import WindsAloft.Proofs.Codec.Store
import WindsAloft.Proofs.Codec.Record
import WindsAloft.Proofs.Json.Scanning
import WindsAloft.Proofs.Json.Parsing
import WindsAloft.Proofs.Json.Compact
import WindsAloft.Proofs.Toml.Numbers
import WindsAloft.Proofs.Toml.Scanning
import WindsAloft.Proofs.Toml.Lines
import WindsAloft.Proofs.Toml.Assembling
import WindsAloft.Proofs.Draft
import WindsAloft.Proofs.Overlay
import WindsAloft.Proofs.RoundTrip
import WindsAloft.Proofs.Reporting
import WindsAloft.Proofs.Usable
import WindsAloft.Proofs.Decoding
import WindsAloft.Proofs.Printing
import WindsAloft.Proofs.FineLines
import WindsAloft.Proofs.Summaries
import WindsAloft.Proofs.Performing
import WindsAloft.Proofs.Overview
