import MediaCatalogue.Broker.Partition
import MediaCatalogue.Broker.Queue
import MediaCatalogue.Content
import MediaCatalogue.Decimal.Binary64
import MediaCatalogue.Decimal.Shortest
import MediaCatalogue.Deployment.Messages
import MediaCatalogue.Deployment.Reading
import MediaCatalogue.Deployment.Rehearsal
import MediaCatalogue.Deployment.State
import MediaCatalogue.Distinct
import MediaCatalogue.Equivalence.Assertion
import MediaCatalogue.Equivalence.Component
import MediaCatalogue.Equivalence.Edge
import MediaCatalogue.Equivalence.Lookup
import MediaCatalogue.Equivalence.Refresh
import MediaCatalogue.Event
import MediaCatalogue.Fault
import MediaCatalogue.Id
import MediaCatalogue.Ingest.Apply
import MediaCatalogue.Ingest.Error
import MediaCatalogue.Ingest.Pool
import MediaCatalogue.Ingest.Refresher
import MediaCatalogue.Ingest.Update
import MediaCatalogue.Ingest.Worker
import MediaCatalogue.Json.Decode
import MediaCatalogue.Json.Embedded
import MediaCatalogue.Json.Node
import MediaCatalogue.Json.Numeral
import MediaCatalogue.Json.Reader
import MediaCatalogue.Json.Value
import MediaCatalogue.Proofs.Sequences
import MediaCatalogue.Proofs.Statements
import MediaCatalogue.Publisher
import MediaCatalogue.Query.Basic
import MediaCatalogue.Query.Detail
import MediaCatalogue.Query.Error
import MediaCatalogue.Query.Execute
import MediaCatalogue.Query.Merge
import MediaCatalogue.Query.Selection
import MediaCatalogue.Query.Services
import MediaCatalogue.Query.TitleIndex
import MediaCatalogue.Registry
import MediaCatalogue.Resolved
import MediaCatalogue.Settings.Basic
import MediaCatalogue.Settings.Location
import MediaCatalogue.Sources
import MediaCatalogue.Store.Catalogue
import MediaCatalogue.Store.RefreshQueue
import MediaCatalogue.Store.Resolve
import MediaCatalogue.Store.Snapshots
import MediaCatalogue.Store.Statements
import MediaCatalogue.Store.Write
import MediaCatalogue.Text.Blank
import MediaCatalogue.Text.Hexadecimal
import MediaCatalogue.Text.Quoted
import MediaCatalogue.Text.Separated
import MediaCatalogue.Text.Shown
import MediaCatalogue.Text.Utf8
import MediaCatalogue.Time.Civil
import MediaCatalogue.Time.Duration
import MediaCatalogue.Time.Instant
import MediaCatalogue.Time.Rfc3339
import MediaCatalogue.Toml.Decode
import MediaCatalogue.Toml.Document
import MediaCatalogue.Toml.Number
import MediaCatalogue.Toml.Text
import MediaCatalogue.Toml.Value
import MediaCatalogue.Uuid
import MediaCatalogue.Word
import MediaCatalogue.Proofs.Requests
import MediaCatalogue.Proofs.Connection
import MediaCatalogue.Proofs.Writes
import MediaCatalogue.Proofs.Labels
import MediaCatalogue.Proofs.Lookup
import MediaCatalogue.Proofs.Updates
import MediaCatalogue.Proofs.Maintenance
import MediaCatalogue.Proofs.Convergence
import MediaCatalogue.Proofs.Completion
import MediaCatalogue.Proofs.Rows
import MediaCatalogue.Proofs.Queue
import MediaCatalogue.Proofs.Worker
import MediaCatalogue.Proofs.Delivery
import MediaCatalogue.Proofs.Schedules
import MediaCatalogue.Proofs.Accesses
import MediaCatalogue.Proofs.Passes
import MediaCatalogue.Proofs.Pools
import MediaCatalogue.Proofs.Batches
import MediaCatalogue.Proofs.Merging
import MediaCatalogue.Proofs.Absence
import MediaCatalogue.Proofs.Isolation
import MediaCatalogue.Proofs.Counts
import MediaCatalogue.Proofs.Decisions
import MediaCatalogue.Proofs.Partitions
import MediaCatalogue.Proofs.Draining
import MediaCatalogue.Proofs.Journal
import MediaCatalogue.Proofs.Leases
import MediaCatalogue.Proofs.DeliveryOrder
import MediaCatalogue.Proofs.Members
import MediaCatalogue.Proofs.Answers
import MediaCatalogue.Proofs.Agreement
import MediaCatalogue.Proofs.Recomputing
import MediaCatalogue.Proofs.Wakeups
import MediaCatalogue.Proofs.Outcomes
import MediaCatalogue.Proofs.Entries
import MediaCatalogue.Proofs.Newest
import MediaCatalogue.Proofs.Arrivals
import MediaCatalogue.Proofs.Precedence
import MediaCatalogue.Proofs.Pages
import MediaCatalogue.Proofs.Hits
import MediaCatalogue.Proofs.Collapsing
import MediaCatalogue.Proofs.Oldest
import MediaCatalogue.Proofs.Retrying
import MediaCatalogue.Proofs.Texts
import MediaCatalogue.Proofs.Numerals
import MediaCatalogue.Proofs.Documents
import MediaCatalogue.Proofs.Reading
import MediaCatalogue.Proofs.Decoding
import MediaCatalogue.Proofs.ReadingBack
import MediaCatalogue.Proofs.Codes
import MediaCatalogue.Proofs.LeaseTimes
import MediaCatalogue.Proofs.Backoff
import MediaCatalogue.Proofs.Calendar
import MediaCatalogue.Proofs.Timestamps
import MediaCatalogue.Proofs.Reencoding
import MediaCatalogue.Proofs.StoredTimes
import MediaCatalogue.Proofs.Resources
import MediaCatalogue.Proofs.Paging
import MediaCatalogue.Proofs.DetailLists
import MediaCatalogue.Proofs.Walks
import MediaCatalogue.Proofs.Repairs
import MediaCatalogue.Proofs.Regrouping
import MediaCatalogue.Proofs.Ranks
