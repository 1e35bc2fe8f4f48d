import BoundedCache.Clock
import BoundedCache.Config
import BoundedCache.Decimal.Binary64
import BoundedCache.Decimal.Shortest
import BoundedCache.Decimal.Text
import BoundedCache.Entry
import BoundedCache.Event
import BoundedCache.Failure
import BoundedCache.Http.Answer
import BoundedCache.Http.Endpoint
import BoundedCache.Http.MediaType
import BoundedCache.Http.Message
import BoundedCache.Http.Order
import BoundedCache.Http.Service
import BoundedCache.Json.Reader.Input
import BoundedCache.Json.Reader.Numeral
import BoundedCache.Json.Reader.Quoted
import BoundedCache.Json.Reader.Record
import BoundedCache.Json.Reader.Skip
import BoundedCache.Json.Reader.Value
import BoundedCache.Json.Size
import BoundedCache.Json.Text
import BoundedCache.Json.Value
import BoundedCache.Key
import BoundedCache.Lifetime
import BoundedCache.Log
import BoundedCache.Main
import BoundedCache.Proofs.Decimal.Text
import BoundedCache.Proofs.Http.Effect
import BoundedCache.Proofs.Http.Operation
import BoundedCache.Proofs.Http.Order
import BoundedCache.Proofs.Http.RoundTrip
import BoundedCache.Proofs.Json.Members
import BoundedCache.Proofs.Json.Reader.Input
import BoundedCache.Proofs.Json.Reader.Numeral
import BoundedCache.Proofs.Json.Reader.Quoted
import BoundedCache.Proofs.Json.Reader.Record
import BoundedCache.Proofs.Json.Reader.Value
import BoundedCache.Proofs.Json.Size
import BoundedCache.Proofs.Key
import BoundedCache.Proofs.Key.Scope
import BoundedCache.Proofs.Key.Search
import BoundedCache.Proofs.Recency
import BoundedCache.Proofs.Run.Balance
import BoundedCache.Proofs.Run.Basic
import BoundedCache.Proofs.Run.Budget
import BoundedCache.Proofs.Run.Eviction
import BoundedCache.Proofs.Run.Future
import BoundedCache.Proofs.Run.Ledger
import BoundedCache.Proofs.Run.Pattern
import BoundedCache.Proofs.Run.Queue
import BoundedCache.Proofs.Run.Reads
import BoundedCache.Proofs.Run.Removal
import BoundedCache.Proofs.Run.Resize
import BoundedCache.Proofs.Run.Rounds
import BoundedCache.Proofs.Run.Sound
import BoundedCache.Proofs.Run.Sweep
import BoundedCache.Proofs.Run.Tally
import BoundedCache.Proofs.Scan.Basic
import BoundedCache.Proofs.Scan.Chronology
import BoundedCache.Proofs.Scan.Simulation
import BoundedCache.Proofs.Session.Elapse
import BoundedCache.Proofs.Session.Interleaving
import BoundedCache.Proofs.Session.Moves
import BoundedCache.Proofs.Session.Removals
import BoundedCache.Proofs.Session.Reports
import BoundedCache.Proofs.Session.Schedule
import BoundedCache.Proofs.Session.Service
import BoundedCache.Proofs.Session.Sweepers
import BoundedCache.Proofs.Session.Ticks
import BoundedCache.Proofs.Session.Trace
import BoundedCache.Proofs.Stock.Basic
import BoundedCache.Proofs.Stock.Refinement
import BoundedCache.Proofs.Store.Accounting
import BoundedCache.Proofs.Store.Advance
import BoundedCache.Proofs.Store.Change
import BoundedCache.Proofs.Store.Charge
import BoundedCache.Proofs.Store.Contents
import BoundedCache.Proofs.Store.Counters
import BoundedCache.Proofs.Store.Descent
import BoundedCache.Proofs.Store.Discard
import BoundedCache.Proofs.Store.Holding
import BoundedCache.Proofs.Store.Operation
import BoundedCache.Proofs.Store.Peaks
import BoundedCache.Proofs.Store.Posting
import BoundedCache.Proofs.Store.Queue
import BoundedCache.Proofs.Store.Removal
import BoundedCache.Proofs.Table
import BoundedCache.Proofs.Text.CaseTable
import BoundedCache.Proofs.Text.Lowercase
import BoundedCache.Proofs.Text.Percent
import BoundedCache.Proofs.Text.Spelling
import BoundedCache.Recency
import BoundedCache.Session
import BoundedCache.Statistics
import BoundedCache.Store.Basic
import BoundedCache.Store.Eviction
import BoundedCache.Store.Operation
import BoundedCache.Sweeper
import BoundedCache.Table
import BoundedCache.Text.Ascii
import BoundedCache.Text.CaseTable
import BoundedCache.Text.Lowercase
import BoundedCache.Text.Percent
import BoundedCache.Text.Utf8
import BoundedCache.Text.WhiteSpace
import BoundedCache.Word
import BoundedCache.Proofs.Config
import BoundedCache.Proofs.Recency.History
