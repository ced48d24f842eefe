import Stowage.Soak.Workload
import Stowage.Json.Value
namespace Stowage.Soak

open Stowage.Json

/-- A node's report as JSON. -/
def NodeReport.toJson (r : NodeReport) : Value :=
  .obj [("node", .str r.node), ("deposits", .ofNat r.deposits), ("persists", .ofNat r.persists),
    ("conflicts", .ofNat r.conflicts), ("failures", .ofNat r.failures),
    ("quote_reads", .ofNat r.quoteReads), ("change_events", .ofNat r.changeEvents),
    ("cache_hit_ratio", .ofFloat r.cacheHitRatio), ("cache_loads", .ofNat r.cacheLoads),
    ("flushed", .ofNat r.flushed), ("coalesced", .ofNat r.coalesced)]

/-- A run's report as JSON. -/
def SoakReport.toJson (r : SoakReport) : Value :=
  .obj [("nodes", .arr (r.nodes.map NodeReport.toJson)), ("stored_records", .ofNat r.storedRecords),
    ("stranded", .ofNat r.stranded), ("backend_writes", .ofNat r.backendWrites),
    ("longest_lineage", .ofNat r.longestLineage), ("cap_violations", .ofNat r.capViolations),
    ("quote_loads", .ofNat r.quoteLoads)]

end Stowage.Soak
