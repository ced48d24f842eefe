import Stowage.Json.Value
import Stowage.Json.Read
import Stowage.Json.Write
import Stowage.Decimal.Shortest
import Stowage.Decimal.Nearest
import Stowage.Text.Printable
import Stowage.Text.Quoted
import Stowage.Version.Tag
import Stowage.Version.Lineage
import Stowage.Identity
import Stowage.Fault
import Stowage.Instant
import Stowage.Record
import Stowage.Query
import Stowage.Queue
import Stowage.Listeners
import Stowage.Cache.Basic
import Stowage.Flusher.Basic
import Stowage.Flusher.Worker
import Stowage.Settings.Basic
import Stowage.Settings.Json
import Stowage.Settings.Raw
import Stowage.Settings.Read
import Stowage.Formats.Toml
import Stowage.Formats.Yaml
import Stowage.Formats.Ini
import Stowage.Formats.Json5
import Stowage.Settings.Load
import Stowage.Remote.Expiry
import Stowage.Remote.Source
import Stowage.Remote.Proxy
import Stowage.Keys
import Stowage.Backend
import Stowage.Repository.Basic
import Stowage.Repository.Cluster
import Stowage.Random.ChaCha
import Stowage.Random.Uniform
import Stowage.Soak.Account
import Stowage.Soak.Workload
import Stowage.Soak.Report
import Stowage.Soak.Cli
import Stowage.Console.Input
import Stowage.Console.Version
import Stowage.Console.Basics
import Stowage.Console.Parts
import Stowage.Console.Cache
import Stowage.Console.Flusher
import Stowage.Console.Repository
import Stowage.Console.Proxy
import Stowage.Console.Loading
import Stowage.Console.Soak
import Stowage.Console.Dispatch
import Stowage.Main
import Stowage.Proofs.Lineage.Writes
import Stowage.Proofs.Lineage.Descent
import Stowage.Proofs.Cache.Entries
import Stowage.Proofs.Cache.Calls
import Stowage.Proofs.Cache.LocalChanges
import Stowage.Proofs.Cache.Counters
import Stowage.Proofs.Lineage.Text
import Stowage.Proofs.Lineage.Stamped
import Stowage.Proofs.Lineage.Symmetry
import Stowage.Proofs.Lineage.Runs
import Stowage.Proofs.Store.Backend
import Stowage.Proofs.Cache.Stamped
import Stowage.Proofs.Cache.Versions
import Stowage.Proofs.Remote.Stale
import Stowage.Proofs.Remote.Herd
import Stowage.Proofs.Remote.Cohort
import Stowage.Proofs.Flusher.Host
import Stowage.Proofs.Queue.Slots
import Stowage.Proofs.Flusher.Cycle
import Stowage.Proofs.Flusher.Lanes
import Stowage.Proofs.Cluster.Invariant
import Stowage.Proofs.Cluster.Writes
import Stowage.Proofs.Cluster.Runs
import Stowage.Proofs.Cluster.Conflicts
import Stowage.Proofs.Cluster.Frame
import Stowage.Proofs.Cluster.Coherent
import Stowage.Proofs.Cluster.SingleWriter
import Stowage.Proofs.Cluster.SoleWrites
import Stowage.Proofs.Cluster.WriteBehind
import Stowage.Proofs.Cluster.Events
import Stowage.Proofs.Store.Sorted
import Stowage.Proofs.Cluster.Capped
import Stowage.Proofs.Cluster.Ledger
import Stowage.Proofs.Cluster.Answers
import Stowage.Proofs.Soak.Fleet
import Stowage.Proofs.Soak.Health
import Stowage.Proofs.Cache.Evicted
import Stowage.Proofs.Cache.Capacity
import Stowage.Proofs.Flusher.Journal
import Stowage.Proofs.Flusher.Request
import Stowage.Proofs.Flusher.Shutdown
import Stowage.Proofs.Remote.Window
import Stowage.Proofs.Json.Strings
import Stowage.Proofs.Lineage.Forms
import Stowage.Proofs.Flusher.InFlight
import Stowage.Proofs.Flusher.Cancel
import Stowage.Proofs.Flusher.MarkOrder
import Stowage.Proofs.Identity.Text
import Stowage.Proofs.Queue.Assoc
import Stowage.Proofs.Cluster.Drawing
import Stowage.Proofs.Instant.Calendar
import Stowage.Proofs.Instant.Text
import Stowage.Proofs.Store.Records
import Stowage.Proofs.Settings.NodeIds
