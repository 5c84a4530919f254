import FuzzyPath.Alignment.Bounds
import FuzzyPath.Alignment.Buffers
import FuzzyPath.Alignment.Greedy
import FuzzyPath.Alignment.Problem
import FuzzyPath.Alignment.Solve
import FuzzyPath.Alignment.Table
import FuzzyPath.Command.Arguments
import FuzzyPath.Command.Run
import FuzzyPath.Config.Settings
import FuzzyPath.Decimal.Shortest
import FuzzyPath.Error
import FuzzyPath.Files.Entries
import FuzzyPath.Files.FileSet
import FuzzyPath.Files.Glob
import FuzzyPath.Files.GlobNesting
import FuzzyPath.Files.Ignore
import FuzzyPath.Files.Repository
import FuzzyPath.Files.TypedPath
import FuzzyPath.Files.UserRules
import FuzzyPath.Files.Walk
import FuzzyPath.Highlight.Mode
import FuzzyPath.Highlight.Pattern
import FuzzyPath.Highlight.Runs
import FuzzyPath.Json.Codec
import FuzzyPath.Json.Error
import FuzzyPath.Json.Number
import FuzzyPath.Json.Printer
import FuzzyPath.Json.Reader
import FuzzyPath.Json.Record
import FuzzyPath.Json.Text
import FuzzyPath.Json.Value
import FuzzyPath.Main
import FuzzyPath.Path.Components
import FuzzyPath.Path.Style
import FuzzyPath.Proofs.Alignment.Embedding
import FuzzyPath.Proofs.Alignment.Worth
import FuzzyPath.Query.MatchMode
import FuzzyPath.Query.Parse
import FuzzyPath.Ranking.Ranked
import FuzzyPath.Ranking.Search
import FuzzyPath.Ranking.TopK
import FuzzyPath.Report.Terminal
import FuzzyPath.Scoring.Candidate
import FuzzyPath.Scoring.Scorer
import FuzzyPath.Scoring.SharedWords
import FuzzyPath.Scoring.Workspace
import FuzzyPath.Server.Frame
import FuzzyPath.Server.Serve
import FuzzyPath.Service.Matching
import FuzzyPath.Service.Options
import FuzzyPath.Service.Request
import FuzzyPath.Text.Alphanumeric
import FuzzyPath.Text.Blank
import FuzzyPath.Text.CharClass
import FuzzyPath.Text.CodePoints
import FuzzyPath.Text.Lowercase
import FuzzyPath.Text.LowercaseForm
import FuzzyPath.Text.Mode
import FuzzyPath.Text.Numeric
import FuzzyPath.Text.Printable
import FuzzyPath.Text.Quoted
import FuzzyPath.Text.Span
import FuzzyPath.Text.Units
import FuzzyPath.Text.Uppercase
import FuzzyPath.Weights
import FuzzyPath.Proofs.Alignment.Trail
import FuzzyPath.Proofs.Alignment.Rows
import FuzzyPath.Proofs.Alignment.Filling
import FuzzyPath.Proofs.Alignment.Optimum
import FuzzyPath.Proofs.Scoring.Columns
import FuzzyPath.Proofs.Alignment.Outcome
import FuzzyPath.Proofs.Scoring.BestAlignment
import FuzzyPath.Proofs.Path.Filename
import FuzzyPath.Proofs.Query.MatchKey
import FuzzyPath.Proofs.Scoring.Criterion
import FuzzyPath.Proofs.Fallible
import FuzzyPath.Proofs.Scoring.Positions
import FuzzyPath.Proofs.Ranking.Order
import FuzzyPath.Proofs.Ranking.Heap
import FuzzyPath.Proofs.Ranking.TopK
import FuzzyPath.Proofs.Scoring.Reuse
import FuzzyPath.Proofs.Ranking.Search
import FuzzyPath.Proofs.Ranking.Offers
import FuzzyPath.Proofs.Highlight.Matching
import FuzzyPath.Proofs.Highlight.Reading
import FuzzyPath.Proofs.Highlight.Runs
import FuzzyPath.Proofs.Server.Framing
import FuzzyPath.Proofs.Highlight.Shown
import FuzzyPath.Proofs.Server.Serving
import FuzzyPath.Proofs.Json.Text
import FuzzyPath.Proofs.Json.Printed
import FuzzyPath.Proofs.Service.Replies
import FuzzyPath.Proofs.Ranking.Places
import FuzzyPath.Proofs.Server.Session
import FuzzyPath.Proofs.Service.Calls
import FuzzyPath.Proofs.Service.InBand
import FuzzyPath.Proofs.Json.Codecs
import FuzzyPath.Proofs.Service.Wire
import FuzzyPath.Proofs.Query.Exclusions
import FuzzyPath.Proofs.Scoring.Exclusions
import FuzzyPath.Proofs.Service.Exclusions
import FuzzyPath.Proofs.Scoring.Choice
import FuzzyPath.Proofs.Scoring.Crossings
import FuzzyPath.Proofs.Scoring.SharedWords
import FuzzyPath.Proofs.Scoring.CurrentFile
import FuzzyPath.Proofs.Alignment.Tightest
import FuzzyPath.Proofs.Alignment.Improvement
import FuzzyPath.Proofs.Scoring.WeightOrder
import FuzzyPath.Proofs.Scoring.SmartCase
import FuzzyPath.Proofs.Alignment.Shift
import FuzzyPath.Proofs.Scoring.FilenameOnly
import FuzzyPath.Proofs.Scoring.TabKeys
import FuzzyPath.Proofs.Ranking.Merging
import FuzzyPath.Proofs.Text.Ascii
import FuzzyPath.Proofs.Scoring.TextModes
import FuzzyPath.Proofs.Service.TextModes
import FuzzyPath.Proofs.Alignment.Scanning
import FuzzyPath.Proofs.Alignment.Grid
import FuzzyPath.Proofs.Alignment.Buffers
import FuzzyPath.Proofs.Scoring.Workspace
import FuzzyPath.Proofs.Query.Rebuilding
import FuzzyPath.Proofs.Highlight.Cutting
import FuzzyPath.Proofs.Highlight.Coverage
import FuzzyPath.Proofs.Scoring.ExactScore
import FuzzyPath.Proofs.Json.Balance
import FuzzyPath.Proofs.Json.Local
import FuzzyPath.Proofs.Json.Values
import FuzzyPath.Proofs.Json.Errors
import FuzzyPath.Proofs.Json.Members
import FuzzyPath.Proofs.Json.Insertion
import FuzzyPath.Proofs.Json.UnknownKeys
import FuzzyPath.Proofs.Service.Unrecognized
import FuzzyPath.Proofs.Path.Components
import FuzzyPath.Proofs.Path.Distance
import FuzzyPath.Proofs.Json.Indented
import FuzzyPath.Proofs.Config.Saving
import FuzzyPath.Proofs.Report.Lines
import FuzzyPath.Proofs.Command.Words
import FuzzyPath.Proofs.Command.Adding
import FuzzyPath.Proofs.Command.Agreement
import FuzzyPath.Proofs.Report.Colours
import FuzzyPath.Proofs.Alignment.Inside
import FuzzyPath.Proofs.Alignment.Feasible
import FuzzyPath.Proofs.Alignment.Charge
import FuzzyPath.Proofs.Scoring.PlainText
import FuzzyPath.Proofs.Json.Repeated
import FuzzyPath.Proofs.Json.Fieldwise
import FuzzyPath.Proofs.Service.Partial
