import Stowage.Fault
import Stowage.Text.Printable
/-!
Settings of a node.

Every setting has a default, so a source only names what it changes. `validate` rejects the
values the store cannot work with, in a fixed order: an empty node id, a node id holding `;`,
`@` or a blank (the first such character is named), a zero run cap, a zero cache capacity and
a zero pending limit.
-/
namespace Stowage

/-- Where proxies run their background reloads. -/
inductive LoaderMode where
  /-- One reload worker shared by every proxy. -/
  | shared
  /-- A reload worker per proxied object. -/
  | dedicated
  deriving BEq, DecidableEq, Repr, Inhabited

/-- The lowercase name of a loader mode. -/
def LoaderMode.name : LoaderMode → String
  | .shared => "shared"
  | .dedicated => "private"

/-- The node's identity. -/
structure NodeSettings where
  id : String := "persistio-node"
  deriving BEq, Repr, Inhabited

/-- Lineage settings. -/
structure VersionSettings where
  /-- Longest run of consecutive tags kept from one node. -/
  maxSameNodeRun : Nat := 5
  deriving BEq, Repr, Inhabited

/-- Cache settings. -/
structure CacheSettings where
  /-- Most live entries. -/
  capacity : Nat := 10000
  /-- Idle time after which a clean entry is evicted; `0` never. -/
  idleTimeoutMs : Nat := 1800000
  deriving BEq, Repr, Inhabited

/-- Write-behind settings. -/
structure FlusherSettings where
  /-- Batch writes in the background instead of writing through. -/
  writeBehind : Bool := true
  /-- Wait after the oldest pending write before a batch. -/
  delayMs : Nat := 1000
  /-- Pending writes that start a batch early. -/
  maxPending : Nat := 1000
  /-- Period of the cycle that also retries failed writes. -/
  periodMs : Nat := 10000
  /-- Failed attempts before a write is dropped; `0` retries forever. -/
  retryLimit : Nat := 0
  /-- Retry rounds while closing. -/
  drainAttempts : Nat := 3
  /-- Pause after an exhausted resource. -/
  oomBackoffMs : Nat := 500
  deriving BEq, Repr, Inhabited

/-- Remote proxy settings. -/
structure ProxySettings where
  /-- Freshness window: negative reloads before answering, zero never expires, positive
  reloads in the background. -/
  expiryMs : Int := 60000
  loader : LoaderMode := .shared
  deriving BEq, Repr, Inhabited

/-- Persister settings. -/
structure PersisterSettings where
  /-- Hide records owned by other nodes. -/
  ownerOnly : Bool := false
  /-- Check generated ids against the backend. -/
  checkDuplicateIds : Bool := true
  /-- Attempts before id generation gives up. -/
  idRetries : Nat := 3
  deriving BEq, Repr, Inhabited

/-- All settings of a node. -/
structure Settings where
  node : NodeSettings := {}
  version : VersionSettings := {}
  cache : CacheSettings := {}
  flusher : FlusherSettings := {}
  proxy : ProxySettings := {}
  persister : PersisterSettings := {}
  deriving BEq, Repr, Inhabited

namespace Settings

/-- The first character of a node id that may not stand in one. -/
def reservedInNodeId (id : String) : Option Char :=
  id.toList.find? fun c => c = ';' || c = '@' || Text.isBlank c

/-- Reject the values the store cannot work with. -/
def validate (s : Settings) : Outcome Unit :=
  if s.node.id.isEmpty then .error (.configuration "node.id must not be empty")
  else match reservedInNodeId s.node.id with
  | some c => .error (.configuration ("node.id contains reserved character " ++ Text.quoteChar c))
  | none =>
    if s.version.maxSameNodeRun = 0 then
      .error (.configuration "version.max_same_node_run must be at least 1")
    else if s.cache.capacity = 0 then .error (.configuration "cache.capacity must be non-zero")
    else if s.flusher.maxPending = 0 then
      .error (.configuration "flusher.max_pending must be non-zero")
    else .ok ()

/-- The idle timeout, `none` when idle entries are never evicted. -/
def idleTimeout? (s : Settings) : Option Nat :=
  if s.cache.idleTimeoutMs = 0 then none else some s.cache.idleTimeoutMs

end Settings

end Stowage
