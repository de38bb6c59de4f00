import Boardwalk.Board.Basic
import Boardwalk.Board.Stage
import Boardwalk.Board.Walk
import Boardwalk.Command.Arguments
import Boardwalk.Command.Grammar
import Boardwalk.Command.Run
import Boardwalk.Disk.Basic
import Boardwalk.Disk.Location
import Boardwalk.Disk.StateFile
import Boardwalk.Disk.Way
import Boardwalk.Exchange
import Boardwalk.Fault
import Boardwalk.Json.Basic
import Boardwalk.Json.Parser
import Boardwalk.Json.Printer
import Boardwalk.Log.Cause
import Boardwalk.Log.Entry
import Boardwalk.Log.Instant
import Boardwalk.Log.Line
import Boardwalk.Log.Message
import Boardwalk.Main
import Boardwalk.Number.Binary
import Boardwalk.Number.Fixed
import Boardwalk.Number.Numeral
import Boardwalk.Number.Reading
import Boardwalk.Number.Shortest
import Boardwalk.Prompt.Choice
import Boardwalk.Prompt.Question
import Boardwalk.Prompt.Terminal
import Boardwalk.Queue.Basic
import Boardwalk.Queue.Registry
import Boardwalk.Record.Basic
import Boardwalk.Record.Resolver
import Boardwalk.Record.Schema
import Boardwalk.Record.Target
import Boardwalk.Record.Timeline
import Boardwalk.Record.View
import Boardwalk.Script.Expression
import Boardwalk.Session
import Boardwalk.Settings.Basic
import Boardwalk.Settings.Variables
import Boardwalk.Slug
import Boardwalk.Text.Blank
import Boardwalk.Text.Catalog
import Boardwalk.Text.Cell
import Boardwalk.Text.Digit
import Boardwalk.Text.Fill
import Boardwalk.Text.Hex
import Boardwalk.Text.Layout
import Boardwalk.Text.Member
import Boardwalk.Text.Printable
import Boardwalk.Text.Quoted
import Boardwalk.Text.Template
import Boardwalk.Text.Upper
import Boardwalk.Value.Basic
import Boardwalk.Value.Display
import Boardwalk.Wizard
import Boardwalk.World
import Boardwalk.Proofs.Number.Decimal
import Boardwalk.Proofs.Board.Closure
import Boardwalk.Proofs.Board.Course
import Boardwalk.Proofs.Board.Forward
import Boardwalk.Proofs.Board.Reentry
import Boardwalk.Proofs.Board.Restart
import Boardwalk.Proofs.Board.Retry
import Boardwalk.Proofs.Board.Saving
import Boardwalk.Proofs.Record.Prolonged
import Boardwalk.Proofs.Board.Span
import Boardwalk.Proofs.Board.Leftover
import Boardwalk.Proofs.Record.Codable
import Boardwalk.Proofs.Session.Reloaded
import Boardwalk.Proofs.Session.Cleared
import Boardwalk.Proofs.Board.Cleanup
import Boardwalk.Proofs.Board.Residue
import Boardwalk.Proofs.Board.StartingOver
import Boardwalk.Proofs.Board.Undisturbed
import Boardwalk.Proofs.Board.Isolation
import Boardwalk.Proofs.Board.Bounds
import Boardwalk.Proofs.Board.Unresolved
import Boardwalk.Proofs.Session.Discard
import Boardwalk.Proofs.Queue.Workers
import Boardwalk.Proofs.Queue.Schedule
import Boardwalk.Proofs.Queue.Turns
import Boardwalk.Proofs.Queue.Operations
import Boardwalk.Proofs.Queue.Sharing
import Boardwalk.Proofs.Queue.Service
import Boardwalk.Proofs.Queue.Batch
import Boardwalk.Proofs.Queue.Initial
import Boardwalk.Proofs.Queue.Debts
import Boardwalk.Proofs.Session.Outcome
import Boardwalk.Proofs.Session.Failed
import Boardwalk.Proofs.Board.Handover
import Boardwalk.Proofs.Board.Survival
import Boardwalk.Proofs.Text.Numeral
import Boardwalk.Proofs.Board.Lookup
import Boardwalk.Proofs.Board.Ascent
import Boardwalk.Proofs.Board.Jump
import Boardwalk.Proofs.Board.Previous
import Boardwalk.Proofs.Record.Edited
import Boardwalk.Proofs.Record.Settled
import Boardwalk.Proofs.Record.Lasting
import Boardwalk.Proofs.Session.Built
import Boardwalk.Proofs.Board.Strictness
import Boardwalk.Proofs.Board.Refusal
import Boardwalk.Proofs.Record.Outputs
import Boardwalk.Proofs.Text.Pieces
import Boardwalk.Proofs.Slug.Words
import Boardwalk.Proofs.Disk.Child
import Boardwalk.Proofs.Session.Stem
import Boardwalk.Proofs.Slug.Boundary
import Boardwalk.Proofs.Slug.Dashes
import Boardwalk.Proofs.Prompt.Answers
import Boardwalk.Proofs.Prompt.Defaults
import Boardwalk.Proofs.Log.Lines
import Boardwalk.Proofs.Board.Alignment
import Boardwalk.Proofs.Command.Exits
import Boardwalk.Proofs.Disk.Trodden
import Boardwalk.Proofs.Disk.Beside
import Boardwalk.Proofs.Command.Listing
