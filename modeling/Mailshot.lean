import Mailshot.Audience
import Mailshot.Batch
import Mailshot.Body
import Mailshot.Campaign
import Mailshot.Campaign.Json
import Mailshot.Command.Arguments
import Mailshot.Command.Exporter
import Mailshot.Command.Flag
import Mailshot.Command.Log
import Mailshot.Command.Session
import Mailshot.Command.Usage
import Mailshot.Content
import Mailshot.Counters
import Mailshot.Desk
import Mailshot.Dispatch
import Mailshot.Exchange
import Mailshot.Fault
import Mailshot.Feed
import Mailshot.Instant.Basic
import Mailshot.Instant.Text
import Mailshot.Json.Basic
import Mailshot.Json.Numeral
import Mailshot.Json.Printer
import Mailshot.Json.Reader
import Mailshot.Json.Record
import Mailshot.Json.Token
import Mailshot.Ledger
import Mailshot.Mailroom
import Mailshot.Main
import Mailshot.Number.Binary64
import Mailshot.Number.Decimal
import Mailshot.Number.Rounding
import Mailshot.Office
import Mailshot.Progress
import Mailshot.Proofs.Accounts
import Mailshot.Proofs.Agreement
import Mailshot.Proofs.Audience
import Mailshot.Proofs.Batch
import Mailshot.Proofs.Body
import Mailshot.Proofs.Body.Stages
import Mailshot.Proofs.Book
import Mailshot.Proofs.Bucket
import Mailshot.Proofs.Campaign.Json
import Mailshot.Proofs.Completion
import Mailshot.Proofs.Count
import Mailshot.Proofs.Courier
import Mailshot.Proofs.Deed
import Mailshot.Proofs.Delivery
import Mailshot.Proofs.Delta
import Mailshot.Proofs.Desk
import Mailshot.Proofs.Feed.Chronicle
import Mailshot.Proofs.Feed.Drain
import Mailshot.Proofs.Feed.Ending
import Mailshot.Proofs.Files
import Mailshot.Proofs.Instant
import Mailshot.Proofs.Isolation
import Mailshot.Proofs.Json.Shape
import Mailshot.Proofs.Keeping
import Mailshot.Proofs.Ledger
import Mailshot.Proofs.Lifecycle
import Mailshot.Proofs.Number.Decimal
import Mailshot.Proofs.Number.Nearest
import Mailshot.Proofs.Number.Rounding
import Mailshot.Proofs.Office
import Mailshot.Proofs.Places
import Mailshot.Proofs.Progress
import Mailshot.Proofs.Progress.Reports
import Mailshot.Proofs.Provider
import Mailshot.Proofs.Provider.Calls
import Mailshot.Proofs.Refusal
import Mailshot.Proofs.Registry
import Mailshot.Proofs.Rehearsal
import Mailshot.Proofs.Replay
import Mailshot.Proofs.Rounds
import Mailshot.Proofs.Run.Chronicle
import Mailshot.Proofs.Run.Count
import Mailshot.Proofs.Run.Courier
import Mailshot.Proofs.Run.Desk
import Mailshot.Proofs.Run.Ending
import Mailshot.Proofs.Run.Owner
import Mailshot.Proofs.Run.Progress
import Mailshot.Proofs.Run.Retold
import Mailshot.Proofs.Run.Roster
import Mailshot.Proofs.Run.Stocked
import Mailshot.Proofs.Run.Twin
import Mailshot.Proofs.Run.Upshot
import Mailshot.Proofs.Separate
import Mailshot.Proofs.Sequential
import Mailshot.Proofs.Setback
import Mailshot.Proofs.Settings.Layer
import Mailshot.Proofs.Settings.Leaf
import Mailshot.Proofs.Settings.Load
import Mailshot.Proofs.Settings.Shape
import Mailshot.Proofs.Settings.Spelling
import Mailshot.Proofs.Settings.Text
import Mailshot.Proofs.Setup
import Mailshot.Proofs.Share
import Mailshot.Proofs.Share.Bias
import Mailshot.Proofs.Share.Computed
import Mailshot.Proofs.Shift.Account
import Mailshot.Proofs.Shift.Basic
import Mailshot.Proofs.Shift.Calls
import Mailshot.Proofs.Shift.Progress
import Mailshot.Proofs.Store.Maps
import Mailshot.Proofs.Store.Paging
import Mailshot.Proofs.Store.Resolve
import Mailshot.Proofs.Store.Settled
import Mailshot.Proofs.Store.Shelf
import Mailshot.Proofs.Store.Supplies
import Mailshot.Proofs.Table
import Mailshot.Proofs.Text.Base64
import Mailshot.Proofs.Text.Digit
import Mailshot.Proofs.Text.Percent
import Mailshot.Proofs.Text.Utf8
import Mailshot.Proofs.Tracking
import Mailshot.Proofs.Tuning
import Mailshot.Proofs.Uuid
import Mailshot.Proofs.Verdict
import Mailshot.Proofs.Worker.Course
import Mailshot.Proofs.Worker.Delivery
import Mailshot.Proofs.Worker.Scope
import Mailshot.Proofs.Worker.Setback
import Mailshot.Proofs.Worker.Span
import Mailshot.Proofs.Worker.Stage
import Mailshot.Proofs.Worker.Tale
import Mailshot.Provider
import Mailshot.Registry
import Mailshot.Rehearsal
import Mailshot.Run
import Mailshot.Settings.Basic
import Mailshot.Settings.Environment
import Mailshot.Settings.Field
import Mailshot.Settings.Json
import Mailshot.Settings.Layer
import Mailshot.Settings.Load
import Mailshot.Share
import Mailshot.Store.Basic
import Mailshot.Store.Demo
import Mailshot.Table
import Mailshot.Text.Base64
import Mailshot.Text.Blank
import Mailshot.Text.Digit
import Mailshot.Text.Percent
import Mailshot.Text.Printable
import Mailshot.Text.Quoted
import Mailshot.Text.Similarity
import Mailshot.Text.Utf8
import Mailshot.Toml.Line
import Mailshot.Toml.Reader
import Mailshot.Toml.Scalar
import Mailshot.Toml.Text
import Mailshot.Toml.Tree
import Mailshot.Uuid
import Mailshot.Worker
import Mailshot.World
