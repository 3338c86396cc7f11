import Observatory.Event.Json
import Observatory.Json.Printer
import Observatory.Json.Reader
import Observatory.Logging.Journal
import Observatory.Proofs.Service.Delivery
import Observatory.Proofs.Service.Isolation
import Observatory.Proofs.Service.Rollback
import Observatory.Proofs.Service.Visible
import Observatory.Session
import Observatory.Settings.Toml
import Observatory.Wire.Event
import Observatory.Proofs.Transport.Backlog
import Observatory.Proofs.Transport.Equivalence
import Observatory.Proofs.Publisher.Calls
import Observatory.Proofs.Subscription.Lifecycle
import Observatory.Proofs.Subscription.Silence
import Observatory.Proofs.Transport.Inbox
import Observatory.Proofs.Transport.Idle
import Observatory.Proofs.Subscription.Pacing
import Observatory.Proofs.Service.Seeding
import Observatory.Proofs.Transport.Patterns
import Observatory.Proofs.Service.Patterns
import Observatory.Proofs.Wire.Canonical
import Observatory.Proofs.Wire.Decoding
import Observatory.Proofs.Identity.Key
import Observatory.Proofs.Wire.Validity
import Observatory.Proofs.Publisher.Counters
import Observatory.Proofs.Service.Closed
import Observatory.Proofs.Service.Pile
import Observatory.Proofs.Subscription.Refusal
import Observatory.Proofs.Service.Shutdown
import Observatory.Proofs.Glob.Match
import Observatory.Proofs.Glob.Scan
import Observatory.Proofs.Glob.Grammar
import Observatory.Proofs.Glob.Normal
import Observatory.Proofs.Subscription.Resampling
import Observatory.Proofs.Transport.Partition
import Observatory.Proofs.Transport.Shelves
import Observatory.Proofs.Glob.Scope
import Observatory.Proofs.Store.Undo
import Observatory.Proofs.Subscription.Spacing
import Observatory.Proofs.Subscription.Callbacks
import Observatory.Proofs.Identity.Spelling
import Observatory.Proofs.Service.Capacities
import Observatory.Proofs.Publisher.Streams
import Observatory.Proofs.Publisher.Periodic
import Observatory.Proofs.Time.Shift
import Observatory.Proofs.Event.Parameter
import Observatory.Proofs.Transport.Attachment
import Observatory.Proofs.Service.Gauge
