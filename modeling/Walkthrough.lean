import Walkthrough.Decimal.Binary
import Walkthrough.Decimal.Layout
import Walkthrough.Decimal.Numeral
import Walkthrough.Decimal.Shortest
import Walkthrough.Fault
import Walkthrough.File.Disk
import Walkthrough.File.Home
import Walkthrough.File.Name
import Walkthrough.File.Path
import Walkthrough.File.SystemError
import Walkthrough.Host
import Walkthrough.Invocation.Arguments
import Walkthrough.Invocation.Basic
import Walkthrough.Invocation.Batch
import Walkthrough.Invocation.Flag
import Walkthrough.Invocation.Usage
import Walkthrough.Json.Reader
import Walkthrough.Json.Shown
import Walkthrough.Json.Value
import Walkthrough.Json.Writer
import Walkthrough.Locate.Control
import Walkthrough.Locate.Resolve
import Walkthrough.Main
import Walkthrough.Page.Address
import Walkthrough.Page.Basic
import Walkthrough.Page.Key
import Walkthrough.Page.Pause
import Walkthrough.Page.Strategy
import Walkthrough.Page.XPath
import Walkthrough.Proofs.Decimal.Binary
import Walkthrough.Proofs.Decimal.Nearest
import Walkthrough.Proofs.Decimal.Rounding
import Walkthrough.Proofs.Decimal.Shortest
import Walkthrough.Proofs.Decimal.Whole
import Walkthrough.Proofs.Except
import Walkthrough.Proofs.File.Directories
import Walkthrough.Proofs.File.Faults
import Walkthrough.Proofs.File.Slashless
import Walkthrough.Proofs.File.Temporary
import Walkthrough.Proofs.File.Undisturbed
import Walkthrough.Proofs.File.Written
import Walkthrough.Proofs.Invocation.Batches
import Walkthrough.Proofs.Invocation.ExitCodes
import Walkthrough.Proofs.Invocation.Inputs
import Walkthrough.Proofs.Invocation.Outputs
import Walkthrough.Proofs.Invocation.Overrides
import Walkthrough.Proofs.Invocation.RunNames
import Walkthrough.Proofs.Json.Numbers
import Walkthrough.Proofs.Json.Reading
import Walkthrough.Proofs.Json.Strings
import Walkthrough.Proofs.Json.Values
import Walkthrough.Proofs.Locate.Attached
import Walkthrough.Proofs.Locate.Display
import Walkthrough.Proofs.Locate.FirstHit
import Walkthrough.Proofs.Locate.FormControls
import Walkthrough.Proofs.Locate.Sleeps
import Walkthrough.Proofs.Locate.Stable
import Walkthrough.Proofs.Locate.Stops
import Walkthrough.Proofs.Page.ExactText
import Walkthrough.Proofs.Page.Quoting
import Walkthrough.Proofs.Page.Tokens
import Walkthrough.Proofs.Report.Markup
import Walkthrough.Proofs.Report.Recovered
import Walkthrough.Proofs.Run.Ahead
import Walkthrough.Proofs.Run.Alerts
import Walkthrough.Proofs.Run.Alike
import Walkthrough.Proofs.Run.Answers
import Walkthrough.Proofs.Run.Attached
import Walkthrough.Proofs.Run.Borders
import Walkthrough.Proofs.Run.Bounds
import Walkthrough.Proofs.Run.Cleared
import Walkthrough.Proofs.Run.Comes
import Walkthrough.Proofs.Run.Extended
import Walkthrough.Proofs.Run.Faults
import Walkthrough.Proofs.Run.Findable
import Walkthrough.Proofs.Run.Flags
import Walkthrough.Proofs.Run.Highlights
import Walkthrough.Proofs.Run.Jumps
import Walkthrough.Proofs.Run.Lasting
import Walkthrough.Proofs.Run.Moves
import Walkthrough.Proofs.Run.Paused
import Walkthrough.Proofs.Run.Placed
import Walkthrough.Proofs.Run.Placeholders
import Walkthrough.Proofs.Run.Queue
import Walkthrough.Proofs.Run.Reached
import Walkthrough.Proofs.Run.Regions
import Walkthrough.Proofs.Run.Retry
import Walkthrough.Proofs.Run.Rows
import Walkthrough.Proofs.Run.Screenshots
import Walkthrough.Proofs.Run.Secures
import Walkthrough.Proofs.Run.Spared
import Walkthrough.Proofs.Run.Stations
import Walkthrough.Proofs.Run.Stops
import Walkthrough.Proofs.Run.Trace
import Walkthrough.Proofs.Run.Visits
import Walkthrough.Proofs.Script.Derivation
import Walkthrough.Proofs.Script.Grouping
import Walkthrough.Proofs.Script.Handlers
import Walkthrough.Proofs.Script.Layout
import Walkthrough.Proofs.Script.Lexing
import Walkthrough.Proofs.Script.Parsing
import Walkthrough.Proofs.Script.Places
import Walkthrough.Proofs.Script.Refusals
import Walkthrough.Proofs.Script.Rereading
import Walkthrough.Proofs.Script.Seams
import Walkthrough.Proofs.Script.Segments
import Walkthrough.Proofs.Script.Spelling
import Walkthrough.Proofs.Script.Yields
import Walkthrough.Proofs.Session.Alike
import Walkthrough.Proofs.Session.DialogHistory
import Walkthrough.Proofs.Session.Extended
import Walkthrough.Proofs.Session.Secures
import Walkthrough.Proofs.Session.Stops
import Walkthrough.Proofs.Settings.Interrupted
import Walkthrough.Proofs.Settings.Loading
import Walkthrough.Proofs.Settings.Saved
import Walkthrough.Proofs.Settings.Stored
import Walkthrough.Proofs.Settings.Usable
import Walkthrough.Proofs.Sitting.Continued
import Walkthrough.Proofs.Sitting.Ended
import Walkthrough.Proofs.Sitting.Kept
import Walkthrough.Proofs.Table.Cells
import Walkthrough.Proofs.Table.Columns
import Walkthrough.Proofs.Table.Written
import Walkthrough.Proofs.Text.LastLine
import Walkthrough.Proofs.Text.Lines
import Walkthrough.Proofs.Text.Numbered
import Walkthrough.Proofs.Text.Symbols
import Walkthrough.Proofs.Text.Words
import Walkthrough.Report.Html
import Walkthrough.Report.Writing
import Walkthrough.Run.Basic
import Walkthrough.Run.Loop
import Walkthrough.Run.Perform
import Walkthrough.Run.Record
import Walkthrough.Run.Turn
import Walkthrough.Run.Variables
import Walkthrough.Script.Basic
import Walkthrough.Script.Command
import Walkthrough.Script.Grammar
import Walkthrough.Script.LogicalLine
import Walkthrough.Script.Name
import Walkthrough.Script.Reader
import Walkthrough.Script.Region
import Walkthrough.Script.Statement
import Walkthrough.Script.SyntaxError
import Walkthrough.Script.Token
import Walkthrough.Session.Action
import Walkthrough.Session.Basic
import Walkthrough.Session.Dialogs
import Walkthrough.Session.Element
import Walkthrough.Session.Failure
import Walkthrough.Session.Launch
import Walkthrough.Session.Notice
import Walkthrough.Settings.Basic
import Walkthrough.Settings.Places
import Walkthrough.Settings.Reading
import Walkthrough.Settings.Saving
import Walkthrough.Sitting
import Walkthrough.Table.Content
import Walkthrough.Table.Csv
import Walkthrough.Table.Datatable
import Walkthrough.Text.Blank
import Walkthrough.Text.Caseless
import Walkthrough.Text.Digit
import Walkthrough.Text.Line
import Walkthrough.Text.Printable
import Walkthrough.Text.Quoted
import Walkthrough.Text.Units
import Walkthrough.World
