import Compliance.Tally
import Compliance.Partition
import Compliance.Decimal.Shortest
import Compliance.Text.Basic
import Compliance.Text.Lowercase
import Compliance.Text.Quoted
import Compliance.Shape
import Compliance.Json.Writer
import Compliance.Json.Record
import Compliance.Document.Decode
import Compliance.Document.Encode
import Compliance.Document.Basic
import Compliance.Link.Resolve
import Compliance.NameIndex
import Compliance.ResultMatrix
import Compliance.Report.Build
import Compliance.Report.Edit
import Compliance.Report.Encode
import Compliance.Report.Text
import Compliance.Toml.Document
import Compliance.Settings.OfJson
import Compliance.Results.File
import Compliance.Console
import Compliance.CommandLine
import Compliance.FileTree
import Compliance.Run.Perform
import Compliance.Main
import Compliance.Proofs.Sorting
import Compliance.Proofs.Rollup
import Compliance.Proofs.Normalization
import Compliance.Proofs.NameResolution
import Compliance.Proofs.Derivation
import Compliance.Proofs.Opening
import Compliance.Proofs.FinishedReport
import Compliance.Proofs.CrossLinks
import Compliance.Proofs.History
import Compliance.Proofs.Acceptance
import Compliance.Proofs.Severity
import Compliance.Proofs.WorstCategory
import Compliance.Proofs.Alike
import Compliance.Proofs.DeclaredTotals
import Compliance.Proofs.ClosedForm
import Compliance.Proofs.Composition
import Compliance.Proofs.Reordering
import Compliance.Proofs.Numerals
import Compliance.Proofs.WrittenNumbers
import Compliance.Proofs.Layouts
import Compliance.Proofs.Scanning
import Compliance.Proofs.Excerpts
import Compliance.Proofs.ContentHash
import Compliance.Proofs.Stages
import Compliance.Proofs.TableRows
import Compliance.Proofs.SummaryTotals
import Compliance.Proofs.Places
import Compliance.Proofs.Gathering
import Compliance.Proofs.Isolation
import Compliance.Proofs.Running
import Compliance.Proofs.Quiet
import Compliance.Proofs.Reading
import Compliance.Proofs.Records
import Compliance.Proofs.Rereading
import Compliance.Proofs.Doubles
import Compliance.Proofs.DecimalValues
import Compliance.Proofs.UniqueText
import Compliance.Proofs.Determination
import Compliance.Proofs.Rerunning
import Compliance.Proofs.RulePass
import Compliance.Proofs.TargetPass
import Compliance.Proofs.Completion
import Compliance.Proofs.Takeovers
import Compliance.Proofs.Reconciliation
import Compliance.Proofs.Updates
import Compliance.Proofs.Listing
import Compliance.Proofs.Panels
import Compliance.Proofs.Fragments
import Compliance.Proofs.PageNames
import Compliance.Proofs.LinkSystems
import Compliance.Proofs.WordSums
import Compliance.Proofs.Rounding
import Compliance.Proofs.Slices
import Compliance.Proofs.Capacity
import Compliance.Proofs.PathOrder
import Compliance.Proofs.Discovery
import Compliance.Proofs.Pushes
import Compliance.Proofs.NearestDoubles
import Compliance.Proofs.OpeningTotals
import Compliance.Proofs.Trimming
import Compliance.Proofs.Literals
import Compliance.Proofs.ShownVersion
import Compliance.Proofs.TextLines
import Compliance.Proofs.Diagnostics
import Compliance.Proofs.Wording
