import PanelExport.Batch.Basic
import PanelExport.Command.Arguments
import PanelExport.Command.Course
import PanelExport.Command.Export
import PanelExport.Command.Invocation
import PanelExport.Command.Run
import PanelExport.Console.Item
import PanelExport.Console.Markup
import PanelExport.Console.Report
import PanelExport.Console.Summary
import PanelExport.Document.Basic
import PanelExport.Document.Display
import PanelExport.Document.Reader
import PanelExport.Document.Sequence
import PanelExport.Document.Writer
import PanelExport.Double.Basic
import PanelExport.Double.Shortest
import PanelExport.Exposition.Convert
import PanelExport.Failure
import PanelExport.Files.Tree
import PanelExport.Instant.Calendar
import PanelExport.Instant.Iso
import PanelExport.Log.Event
import PanelExport.Log.Line
import PanelExport.Main
import PanelExport.Numeral
import PanelExport.Panel.Datasource
import PanelExport.Panel.Record
import PanelExport.Panel.Tree
import PanelExport.Proofs.Batch.Alignment
import PanelExport.Proofs.Batch.Datasource
import PanelExport.Proofs.Command.ExitCodes
import PanelExport.Proofs.Command.ExportCourse
import PanelExport.Proofs.Document.Characters
import PanelExport.Proofs.Document.Grammar
import PanelExport.Proofs.Document.Numbers
import PanelExport.Proofs.Document.PageMarks
import PanelExport.Proofs.Document.Reading
import PanelExport.Proofs.Document.Rows
import PanelExport.Proofs.Document.Sequences
import PanelExport.Proofs.Document.Writing
import PanelExport.Proofs.Double.Order
import PanelExport.Proofs.Double.Rounding
import PanelExport.Proofs.Double.Shortest
import PanelExport.Proofs.Double.Text
import PanelExport.Proofs.Double.Thousandths
import PanelExport.Proofs.Exposition.Reading
import PanelExport.Proofs.Files.ExportNames
import PanelExport.Proofs.Instant.Days
import PanelExport.Proofs.Instant.Shown
import PanelExport.Proofs.Instant.Spelled
import PanelExport.Proofs.Numeral
import PanelExport.Proofs.Outcome
import PanelExport.Proofs.Panel.Lookup
import PanelExport.Proofs.Panel.Order
import PanelExport.Proofs.Query.Alike
import PanelExport.Proofs.Query.Arity
import PanelExport.Proofs.Query.Blame
import PanelExport.Proofs.Query.Boundaries
import PanelExport.Proofs.Query.Brackets
import PanelExport.Proofs.Query.Composition
import PanelExport.Proofs.Query.Depth
import PanelExport.Proofs.Query.Durations
import PanelExport.Proofs.Query.FaultPlaces
import PanelExport.Proofs.Query.Faults
import PanelExport.Proofs.Query.Grouping
import PanelExport.Proofs.Query.Insertion
import PanelExport.Proofs.Query.Layout
import PanelExport.Proofs.Query.Leaves
import PanelExport.Proofs.Query.Levels
import PanelExport.Proofs.Query.Literals
import PanelExport.Proofs.Query.Lookahead
import PanelExport.Proofs.Query.Loops
import PanelExport.Proofs.Query.Magnitude
import PanelExport.Proofs.Query.Metrics
import PanelExport.Proofs.Query.Nodes
import PanelExport.Proofs.Query.Operands
import PanelExport.Proofs.Query.Places
import PanelExport.Proofs.Query.Precedence
import PanelExport.Proofs.Query.Printed
import PanelExport.Proofs.Query.Printer
import PanelExport.Proofs.Query.Progress
import PanelExport.Proofs.Query.Quotations
import PanelExport.Proofs.Query.Reading
import PanelExport.Proofs.Query.Replies
import PanelExport.Proofs.Query.RoundTrip
import PanelExport.Proofs.Query.Rows
import PanelExport.Proofs.Query.Rules
import PanelExport.Proofs.Query.Soundness
import PanelExport.Proofs.Query.Sources
import PanelExport.Proofs.Query.Suffixes
import PanelExport.Proofs.Query.Traversal
import PanelExport.Proofs.Query.Tree
import PanelExport.Proofs.Query.Types
import PanelExport.Proofs.Query.Values
import PanelExport.Proofs.Query.Variables
import PanelExport.Proofs.Query.Words
import PanelExport.Proofs.Remote.Outcomes
import PanelExport.Proofs.Remote.Segments
import PanelExport.Proofs.Remote.Sending
import PanelExport.Proofs.Result.Lines
import PanelExport.Proofs.Result.Restored
import PanelExport.Proofs.Result.Shapes
import PanelExport.Proofs.Service.Bodies
import PanelExport.Proofs.Service.Reports
import PanelExport.Proofs.Session.Closing
import PanelExport.Proofs.Session.Contents
import PanelExport.Proofs.Session.Exchange
import PanelExport.Proofs.Session.Flight
import PanelExport.Proofs.Session.Naming
import PanelExport.Proofs.Session.Opened
import PanelExport.Proofs.Session.Parameters
import PanelExport.Proofs.Session.Saving
import PanelExport.Proofs.Session.Steps
import PanelExport.Proofs.Text.Classes
import PanelExport.Proofs.Text.Percent
import PanelExport.Proofs.Text.Position
import PanelExport.Proofs.Text.Utf8
import PanelExport.Proofs.TimeRange.Millis
import PanelExport.Proofs.TimeRange.Normal
import PanelExport.Proofs.TimeRange.Ordered
import PanelExport.Query.Duration
import PanelExport.Query.Expr
import PanelExport.Query.Fault
import PanelExport.Query.Lexer
import PanelExport.Query.Metrics
import PanelExport.Query.Parser
import PanelExport.Query.Report
import PanelExport.Query.Signature
import PanelExport.Query.Token
import PanelExport.Remote.Address
import PanelExport.Remote.Host
import PanelExport.Remote.Name
import PanelExport.Remote.NameChars
import PanelExport.Remote.Punycode
import PanelExport.Remote.Reply
import PanelExport.Remote.Request
import PanelExport.Result.Frame
import PanelExport.Result.Group
import PanelExport.Service.PathPattern
import PanelExport.Service.Resource
import PanelExport.Session.Basic
import PanelExport.Session.Dashboard
import PanelExport.Session.Fault
import PanelExport.Session.Params
import PanelExport.Session.Timeline
import PanelExport.Settings.Basic
import PanelExport.Settings.Value
import PanelExport.Text.Base64
import PanelExport.Text.CharClass
import PanelExport.Text.Encoded
import PanelExport.Text.Percent
import PanelExport.Text.Printable
import PanelExport.Text.SmallLetter
import PanelExport.Text.Utf8
import PanelExport.Text.Word
import PanelExport.Text.Wording
import PanelExport.TimeRange
