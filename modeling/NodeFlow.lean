import NodeFlow.Bypass
import NodeFlow.Chain.Inject
import NodeFlow.Chain.Selection
import NodeFlow.Command.Arguments
import NodeFlow.Command.Files
import NodeFlow.Command.Line
import NodeFlow.Command.Run
import NodeFlow.Command.Usage
import NodeFlow.Decimal.Binary64
import NodeFlow.Decimal.Lenient
import NodeFlow.Decimal.Notation
import NodeFlow.Decimal.Text
import NodeFlow.Decimal.Shortest
import NodeFlow.Proofs.Outcome
import NodeFlow.Proofs.Decimal.Nearest
import NodeFlow.Proofs.Decimal.Search
import NodeFlow.Error
import NodeFlow.Error.Construct
import NodeFlow.Graph.Basic
import NodeFlow.Graph.Check
import NodeFlow.Graph.Inspect
import NodeFlow.Graph.Lookup
import NodeFlow.Submission.Compile
import NodeFlow.Graph.Read
import NodeFlow.Graph.SlotTypes
import NodeFlow.Graph.Write
import NodeFlow.Hash.Sha256
import NodeFlow.Json.Access
import NodeFlow.Json.Display
import NodeFlow.Json.Number
import NodeFlow.Json.Reader
import NodeFlow.Json.Value
import NodeFlow.Json.Writer
import NodeFlow.Layout.Import
import NodeFlow.Layout.Widgets
import NodeFlow.Main
import NodeFlow.Mapping.Candidate
import NodeFlow.Mapping.Placement
import NodeFlow.Mapping.State
import NodeFlow.Proofs.Bypass.Resolve
import NodeFlow.Proofs.Bypass.Text
import NodeFlow.Proofs.Bypass.Walk
import NodeFlow.Proofs.Chain.Grow
import NodeFlow.Proofs.Chain.Inject
import NodeFlow.Proofs.Chain.Resolve
import NodeFlow.Proofs.Chain.Shape
import NodeFlow.Proofs.Chain.Extend
import NodeFlow.Proofs.Graph.Canonical
import NodeFlow.Proofs.Graph.Document
import NodeFlow.Proofs.Graph.Fresh
import NodeFlow.Proofs.Graph.Links
import NodeFlow.Proofs.Graph.Normal
import NodeFlow.Proofs.Graph.Passes
import NodeFlow.Proofs.Graph.Reread
import NodeFlow.Proofs.Graph.Literals
import NodeFlow.Proofs.Graph.Cycles
import NodeFlow.Proofs.Graph.Suggestions
import NodeFlow.Proofs.Json.Ascii
import NodeFlow.Proofs.Json.Doubles
import NodeFlow.Proofs.Json.Exact
import NodeFlow.Proofs.Mapping.Bindings
import NodeFlow.Proofs.Mapping.Template
import NodeFlow.Proofs.Mapping.Trace
import NodeFlow.Proofs.Mapping.Session
import NodeFlow.Proofs.Mapping.Written
import NodeFlow.Proofs.Mapping.Prompts
import NodeFlow.Proofs.Template.Text
import NodeFlow.Proofs.Template.Restore
import NodeFlow.Proofs.Template.Filled
import NodeFlow.Proofs.Layout.Reimport
import NodeFlow.Proofs.Layout.Sources
import NodeFlow.Proofs.Layout.Walk
import NodeFlow.Proofs.Layout.Reroute
import NodeFlow.Proofs.Layout.Widgets
import NodeFlow.Proofs.Json.Layout
import NodeFlow.Proofs.Json.Numbers
import NodeFlow.Proofs.Json.RoundTrip
import NodeFlow.Proofs.Json.Strings
import NodeFlow.Proofs.Json.Settled
import NodeFlow.Proofs.Json.Sorted
import NodeFlow.Proofs.Mapping.Saved
import NodeFlow.Proofs.Mapping.Range
import NodeFlow.Proofs.Submission.Prepare
import NodeFlow.Schema.Basic
import NodeFlow.Schema.Query
import NodeFlow.Schema.Read
import NodeFlow.Settings
import NodeFlow.Submission.Request
import NodeFlow.Template.Category
import NodeFlow.Template.Field
import NodeFlow.Template.Fill
import NodeFlow.Template.Placeholder
import NodeFlow.Text.CaseMap
import NodeFlow.Text.Digit
import NodeFlow.Text.Printable
import NodeFlow.Text.Surrogate
import NodeFlow.Text.Table
import NodeFlow.Validation.Issue
