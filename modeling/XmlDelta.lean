import XmlDelta.Document.Builder
import XmlDelta.Document.Render
import XmlDelta.Compare.Verdict
import XmlDelta.Compare.Failure
import XmlDelta.Compare.Results
import XmlDelta.Disk.Tree
import XmlDelta.Number.Rounding
import XmlDelta.Number.Binary64
import XmlDelta.Number.Shortest
import XmlDelta.Json.Fault
import XmlDelta.Json.Text
import XmlDelta.Json.Number
import XmlDelta.Json.Value
import XmlDelta.Json.Skip
import XmlDelta.Compare.Job
import XmlDelta.Jobs.Json
import XmlDelta.Report.View
import XmlDelta.Report.Fragment
import XmlDelta.Report.Duration
import XmlDelta.Report.Human
import XmlDelta.Report.Json
import XmlDelta.Report.Text
import XmlDelta.Report.Failure
import XmlDelta.Toml.Text
import XmlDelta.Jobs.Toml
import XmlDelta.Jobs.File
import XmlDelta.CommandLine.Arguments
import XmlDelta.Settings.Search
import XmlDelta.Run.Permits
import XmlDelta.Run.Program
import XmlDelta.Main
import XmlDelta.Proofs.Compare.Noise
import XmlDelta.Proofs.Compare.Seams
import XmlDelta.Proofs.Document.Build
import XmlDelta.Proofs.Text.Utf8
import XmlDelta.Proofs.Markup.Scan
import XmlDelta.Proofs.Markup.Reading
import XmlDelta.Proofs.Document.Locate
import XmlDelta.Proofs.Markup.Delivery
import XmlDelta.Proofs.Text.Blank
import XmlDelta.Proofs.Document.Layout
import XmlDelta.Proofs.Document.RoundTrip
import XmlDelta.Proofs.Compare.Results
import XmlDelta.Proofs.Run.Interleaving
import XmlDelta.Proofs.Run.ExitStatus
import XmlDelta.Proofs.Compare.Label
import XmlDelta.Proofs.Run.Reports
import XmlDelta.Proofs.Jobs.Json
import XmlDelta.Proofs.Disk.Write
import XmlDelta.Proofs.Jobs.File
import XmlDelta.Proofs.Document.Place
import XmlDelta.Proofs.Compare.Edit
import XmlDelta.Proofs.Json.Reader
import XmlDelta.Proofs.Report.Json
import XmlDelta.Proofs.Document.Insert
import XmlDelta.Proofs.Document.Search
import XmlDelta.Proofs.Compare.Difference
import XmlDelta.Proofs.Document.Bytes
import XmlDelta.Proofs.Jobs.Load
import XmlDelta.Proofs.Run.Session
import XmlDelta.Proofs.Compare.SingleEdit
import XmlDelta.Proofs.Compare.Aggregate
import XmlDelta.Proofs.Run.Reload
import XmlDelta.Proofs.Run.Outcome
import XmlDelta.Proofs.Run.Mirror
import XmlDelta.Proofs.Report.Duration
import XmlDelta.Proofs.Settings.Layers
import XmlDelta.Proofs.Jobs.OneFormat
import XmlDelta.Proofs.CommandLine.Tags
import XmlDelta.Proofs.Document.Lines
import XmlDelta.Proofs.Run.AdHocJob
import XmlDelta.Proofs.Json.Printable
import XmlDelta.Proofs.Report.Color
import XmlDelta.Proofs.Report.Decoration
import XmlDelta.Proofs.Report.Telling
import XmlDelta.Proofs.Run.Notices
import XmlDelta.Proofs.Run.Batches
import XmlDelta.Proofs.Markup.OpenTags
import XmlDelta.Proofs.Document.Lockstep
