import RecordBoard.Board.Answer
import RecordBoard.Settings.File
import RecordBoard.Store.Session
import RecordBoard.Launch
import RecordBoard.Main
import RecordBoard.Proofs.Board.Rejection
import RecordBoard.Proofs.Number.Rounding
import RecordBoard.Proofs.Text.Utf8
import RecordBoard.Proofs.Number.Shortest
import RecordBoard.Proofs.Json.Numeral
import RecordBoard.Proofs.Json.Quoted
import RecordBoard.Proofs.Json.Shape
import RecordBoard.Proofs.Json.RoundTrip
import RecordBoard.Proofs.Json.Reading
import RecordBoard.Proofs.Number.Whole
import RecordBoard.Proofs.Number.Nearest
import RecordBoard.Proofs.Json.Settled
import RecordBoard.Proofs.Number.Value
import RecordBoard.Proofs.Record.Stamp
import RecordBoard.Proofs.Record.Completed
import RecordBoard.Proofs.Store.Records
import RecordBoard.Proofs.Store.Moments
import RecordBoard.Proofs.Guard
import RecordBoard.Proofs.Http.Target
import RecordBoard.Proofs.Delivery.Draft
import RecordBoard.Proofs.Board.Answer
import RecordBoard.Proofs.Board.Untouched
import RecordBoard.Proofs.Board.Writes
import RecordBoard.Proofs.Board.Put
import RecordBoard.Proofs.Board.Stored
import RecordBoard.Proofs.Board.Created
import RecordBoard.Proofs.Board.Updated
import RecordBoard.Proofs.Board.ReadBack
import RecordBoard.Proofs.Text.Order
import RecordBoard.Proofs.Text.Hex
import RecordBoard.Proofs.Store.Page
import RecordBoard.Proofs.Board.Listing
import RecordBoard.Proofs.Board.Traversal
import RecordBoard.Proofs.Board.Spared
import RecordBoard.Proofs.Board.Readable
import RecordBoard.Proofs.Json.Continued
import RecordBoard.Proofs.Json.Nested
import RecordBoard.Proofs.Board.Sync
import RecordBoard.Proofs.Board.Acknowledged
import RecordBoard.Proofs.Http.Percent
import RecordBoard.Proofs.Board.Routes
import RecordBoard.Proofs.Store.Local
import RecordBoard.Proofs.Board.Commute
import RecordBoard.Proofs.Board.Alike
import RecordBoard.Proofs.Board.Refusal
import RecordBoard.Proofs.Board.Addressing
import RecordBoard.Proofs.Board.Repeated
import RecordBoard.Proofs.Store.Upsert
import RecordBoard.Proofs.Board.Moved
import RecordBoard.Proofs.Delivery.Mapping
import RecordBoard.Proofs.Board.Delivered
import RecordBoard.Proofs.Delivery.Subject
import RecordBoard.Proofs.Board.Subjects
import RecordBoard.Proofs.Text.Malformed
import RecordBoard.Proofs.Text.Digits
import RecordBoard.Proofs.Store.Cursor
import RecordBoard.Proofs.Store.Selected
import RecordBoard.Proofs.Http.Header
import RecordBoard.Proofs.Record.Floor
import RecordBoard.Proofs.Board.Retold
import RecordBoard.Proofs.Record.Identity
import RecordBoard.Proofs.Board.Assigned
import RecordBoard.Proofs.Board.Identities
import RecordBoard.Proofs.Record.Tally
import RecordBoard.Proofs.Board.Summary
import RecordBoard.Proofs.Board.Building
import RecordBoard.Proofs.Board.Origins
import RecordBoard.Proofs.Settings.PageSize
import RecordBoard.Proofs.Board.PageSize
import RecordBoard.Proofs.CommandLine
import RecordBoard.Proofs.Settings.File
import RecordBoard.Proofs.Launch
