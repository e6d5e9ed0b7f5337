import ViewGraph.Number.Decimal
import ViewGraph.Text.Blank
import ViewGraph.Text.Digit
import ViewGraph.Text.LetterCase
import ViewGraph.Text.Printable
import ViewGraph.Graph
import ViewGraph.Value.Plain
import ViewGraph.Json.Reader
import ViewGraph.Json.Writer
import ViewGraph.Record
import ViewGraph.Record.Checked
import ViewGraph.Record.Check
import ViewGraph.Record.Dump
import ViewGraph.Allocator
import ViewGraph.Document
import ViewGraph.Log
import ViewGraph.Builder
import ViewGraph.Graph.Claim
import ViewGraph.Graph.Role
import ViewGraph.Normalization
import ViewGraph.Report
import ViewGraph.Document.Text
import ViewGraph.Log.Format
import ViewGraph.Log.Message
import ViewGraph.Settings
import ViewGraph.Files
import ViewGraph.Log.Setup
import ViewGraph.Command.Arguments
import ViewGraph.Command.Invocation
import ViewGraph.Command.Run
import ViewGraph.Main
import ViewGraph.Proofs.Reachability
import ViewGraph.Proofs.Splicing
import ViewGraph.Proofs.FirstVisit
import ViewGraph.Proofs.Numbering
import ViewGraph.Proofs.Search
import ViewGraph.Proofs.Block
import ViewGraph.Proofs.Resolution
import ViewGraph.Proofs.Claims
import ViewGraph.Proofs.Run
import ViewGraph.Proofs.Identity
import ViewGraph.Proofs.Links
import ViewGraph.Proofs.Assignment
import ViewGraph.Proofs.Emission
import ViewGraph.Proofs.Agreement
import ViewGraph.Proofs.Transparency
import ViewGraph.Proofs.Duplicates
import ViewGraph.Proofs.Tables
import ViewGraph.Proofs.PropIds
import ViewGraph.Proofs.Rendering
import ViewGraph.Proofs.JsonData
import ViewGraph.Proofs.Shown
import ViewGraph.Proofs.Checks
import ViewGraph.Proofs.Loading
import ViewGraph.Proofs.Planting
import ViewGraph.Proofs.Acceptance
import ViewGraph.Proofs.Dumping
import ViewGraph.Proofs.Declared
import ViewGraph.Proofs.Declarations
import ViewGraph.Proofs.Nodes
import ViewGraph.Proofs.Lowering
import ViewGraph.Proofs.StyleGraph
import ViewGraph.Proofs.Writing
import ViewGraph.Proofs.Strictness
import ViewGraph.Proofs.JsonString
import ViewGraph.Proofs.JsonNumber
import ViewGraph.Proofs.JsonBrackets
import ViewGraph.Proofs.ReadBack
import ViewGraph.Proofs.Refusals
import ViewGraph.Proofs.Grammar
import ViewGraph.Proofs.Growth
import ViewGraph.Proofs.Building
import ViewGraph.Proofs.Actions
import ViewGraph.Proofs.Output
import ViewGraph.Proofs.JsonReading
import ViewGraph.Proofs.Reported
import ViewGraph.Proofs.ChildLists
import ViewGraph.Proofs.Revalidation
import ViewGraph.Proofs.Projection
import ViewGraph.Proofs.RenamedValues
import ViewGraph.Proofs.RenamedRecords
import ViewGraph.Proofs.RenamedGraph
import ViewGraph.Proofs.Renaming
import ViewGraph.Proofs.Allocation
import ViewGraph.Proofs.LocalEdits
import ViewGraph.Proofs.ErrorPaths
import ViewGraph.Proofs.Bracketing
import ViewGraph.Proofs.Dispatch
import ViewGraph.Proofs.JsonLength
import ViewGraph.Proofs.JsonLines
import ViewGraph.Proofs.Colours
