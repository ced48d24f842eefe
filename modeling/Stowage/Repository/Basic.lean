import Stowage.Backend
import Stowage.Cache.Basic
import Stowage.Flusher.Basic
import Stowage.Keys
import Stowage.Listeners
import Stowage.Settings.Basic
/-!
Repositories: the objects of one kind on one node, cached and written through a shared store.

Objects are application values kept in the cluster and named by numbers; a node's cache maps
identities to those numbers. What a kind of object does when it is written, loaded, offered a
reload or evicted, and how it becomes a record and back, is its object model.

A cluster is every node of a scenario with the store they share, the objects, the names the
application holds objects under, and the deliveries made to change listeners. The operations
are in `Stowage.Repository.Cluster`.
-/
namespace Stowage

open Stowage.Version

/-- What a kind of object does around storage. -/
structure ObjectModel (ω : Type) where
  /-- The identity the object is stored under. -/
  identity : ω → Identity
  /-- Before the object is encoded for a write. -/
  beforePersist : ω → ω
  /-- After a write, with the lineage now stored. -/
  afterPersist : ω → Lineage → ω
  /-- On a freshly loaded object, with its identity, lineage and owner. -/
  afterLoad : ω → Identity → Lineage → Option String → ω
  /-- Offer a reloaded copy to the live object: the live object after taking it in, or
  `none` when the copy is to replace it. -/
  absorb : ω → ω → Option ω
  /-- When the object leaves a cache while still held. -/
  markDeleted : ω → ω
  /-- The record of an object. -/
  encode : ω → Outcome Record
  /-- The object of a record, given whether the decoding node's objects take in reloads. -/
  decode : Bool → Identity → Record → Outcome ω

/-- How a node hears about changes made by other writers. -/
inductive Feed where
  /-- It does not. -/
  | none
  /-- It subscribes to the store once it has a listener. -/
  | store
  /-- Subscribing fails. -/
  | broken
  deriving DecidableEq, Repr, Inhabited

/-- The objects of one kind on one node. -/
structure Repository where
  kind : String
  /-- The node id written into lineages. -/
  node : String
  /-- Longest run of one node's tags kept in a lineage. -/
  maxRun : Nat
  settings : PersisterSettings
  cache : Cache
  /-- Change listeners by name. -/
  listeners : Listeners String
  feed : Feed
  feedStarted : Bool
  keys : KeySource
  /-- Identities with a store call of this node in progress, with how many. -/
  ownWrites : List (Identity × Nat)
  /-- The write-behind queue; `none` writes through. -/
  flusher : Option (Flusher Identity Identity)
  /-- Whether objects this node decodes take in reloads. -/
  absorbs : Bool
  /-- The node reaches the store through load, save, create and delete only. -/
  narrow : Bool
  deriving Inhabited

namespace Repository

/-- Records owned by other nodes are hidden in owner-only mode. -/
def visible (r : Repository) (owner : Option String) : Bool :=
  !r.settings.ownerOnly || owner.all (· == r.node)

/-- Refuse identities of another kind. -/
def checkKind (r : Repository) (id : Identity) : Outcome Unit :=
  if id.kind == r.kind then .ok ()
  else .error (.invariant (id.render ++ " handed to the " ++ r.kind ++ " persister"))

/-- Whether a store call of this node on the identity is in progress. -/
def isOwnWrite (r : Repository) (id : Identity) : Bool := (r.ownWrites.lookup id).isSome

/-- Count a store call starting or ending. -/
def ownWriteStep (r : Repository) (id : Identity) (starting : Bool) : Repository :=
  let n := (r.ownWrites.lookup id).getD 0
  let rest := r.ownWrites.filter fun p => !(p.1 == id)
  if starting then { r with ownWrites := (id, n + 1) :: rest }
  else if n ≤ 1 then { r with ownWrites := rest } else { r with ownWrites := (id, n - 1) :: rest }

/-- A repository for `kind` on a node with the given settings; the settings are checked, and
so is the kind, as an identity part. -/
def build (kind : String) (s : Settings) (feed : Feed) (keys : KeySource) (absorbs narrow : Bool)
    (now : Nat) : Outcome Repository := do
  s.validate
  match Identity.make kind "_" with
  | .error e => throw (Fault.ofIdentity e)
  | .ok _ => pure ()
  let flusher := if s.flusher.writeBehind then
      some (Flusher.create (FlusherOptions.ofSettings s.flusher) now)
    else none
  return {
    kind, node := s.node.id, maxRun := s.version.maxSameNodeRun, settings := s.persister,
    cache := Cache.empty s.cache.capacity s.idleTimeout?, listeners := Listeners.empty, feed,
    feedStarted := false, keys, ownWrites := [], flusher, absorbs, narrow }

end Repository

/-- A change delivered to a listener: the node, the listener, the change, the identity, and
the object as it was then. -/
structure Delivery (ω : Type) where
  node : Nat
  listener : String
  change : ChangeKind
  id : Identity
  value : Option (Nat × ω)

/-- Every node of a scenario with the store they share. -/
structure Cluster (ω : Type) where
  backend : Backend
  nodes : List Repository
  /-- Objects by number: object `n` is at position `n - 1`. -/
  objects : Array ω
  /-- Objects the application holds, by name. -/
  handles : List (String × Nat)
  /-- Objects a running operation holds. -/
  pinned : List Nat
  /-- Deliveries to listeners, newest first. -/
  deliveries : List (Delivery ω)
  /-- Milliseconds since the scenario started. -/
  now : Nat
  /-- The wall clock when the scenario started, in milliseconds since the epoch. -/
  wallStart : Int

/-- Operations on a cluster: they change it, and fail with a fault, keeping what was done. -/
abbrev ClusterOp (ω β : Type) := ExceptT Fault (StateM (Cluster ω)) β

namespace Cluster

variable {ω : Type} [Inhabited ω]

/-- A node. -/
def node (c : Cluster ω) (i : Nat) : Repository := c.nodes.getD i default

/-- Change a node. -/
def modifyNode (c : Cluster ω) (i : Nat) (f : Repository → Repository) : Cluster ω :=
  { c with nodes := c.nodes.modify i f }

/-- An object. -/
def obj (c : Cluster ω) (n : Nat) : ω := c.objects.getD (n - 1) default

/-- Change an object. -/
def modifyObj (c : Cluster ω) (n : Nat) (f : ω → ω) : Cluster ω :=
  { c with objects := c.objects.modify (n - 1) f }

/-- Number a new object. -/
def make (c : Cluster ω) (o : ω) : Cluster ω × Nat :=
  ({ c with objects := c.objects.push o }, c.objects.size + 1)

/-- Whether an object is held by anyone but the cache of node `i`: the application, a running
operation, or another node's cache. -/
def heldBeyond (c : Cluster ω) (i : Nat) (n : Nat) : Bool :=
  c.handles.any (·.2 == n) || c.pinned.contains n ||
    (c.nodes.zipIdx.any fun (r, j) => j != i && r.cache.entries.any (·.2.inst == n))

/-- The wall clock now. -/
def clock (c : Cluster ω) : Instant :=
  (Instant.ofMillis? (c.wallStart + c.now)).getD ⟨0, 0⟩

end Cluster

end Stowage
