import Stowage.Remote.Source
import Stowage.Remote.Expiry
/-!
Cache-aside proxies for remote values, and the registry that hands them out.

A proxy keeps the last value fetched from the source with its lineage, owner and freshness
stamp. A read consults the expiry policy: a fresh value is answered as it is, a blocking proxy
reloads before answering, and a background proxy answers with the cached value and asks for a
reload to run later. A failed reload never takes a cached value away: the stale value is served
and stamped again, so callers do not all retry at once; with nothing cached, the offline copy is
used when there is one.

A value offered by a reload or pushed by the source is installed unless the same lineage is
already cached, or a local write is in progress. A local write proposes the cached lineage
extended by this node; while it runs, the proxy counts it as pending and refuses to expire. A
conflict expires the proxy so that the next read picks up the winning value.

The registry holds one proxy per identity, made on first use. Background reloads go to one
shared loader that runs them when drained, one per identity at a time; with private loaders,
every proxy runs its reloads at once.
-/
namespace Stowage.Remote

open Stowage.Version

/-- Counters of one proxy. -/
structure ProxyStats where
  /-- Reads of the source. -/
  loads : Nat := 0
  /-- Reloads run by a loader. -/
  backgroundReloads : Nat := 0
  /-- Failed reloads answered with the cached value. -/
  staleServed : Nat := 0
  /-- Failed loads answered from the offline copies. -/
  offlineHits : Nat := 0
  /-- Successful local writes. -/
  writes : Nat := 0
  deriving Inhabited

/-- What proxies reach: the source, whether they may write to it, the offline copies, which
copies they fall back on, and the clock in milliseconds since the epoch. -/
structure Backing (α : Type) where
  source : Source α
  /-- Proxies reach a read-only source through reads alone, and their writes are refused. -/
  writable : Bool
  copies : Copies α
  fallback : Fallback
  clock : Int

namespace Backing

variable {α : Type}

/-- The offline copy a proxy falls back on; a broken set answers nothing. -/
def offlineGet (b : Backing α) (id : Identity) : Option (RemoteValue α) :=
  match b.fallback with
  | .copies => b.copies.get? id
  | _ => none

/-- Keep an offline copy; a broken set keeps nothing. -/
def keepCopy (b : Backing α) (id : Identity) (v : RemoteValue α) : Backing α :=
  match b.fallback with
  | .copies => { b with copies := (b.copies.update id v).1 }
  | _ => b

end Backing

/-- The cached state of one remote object. -/
structure Proxy (α : Type) where
  id : Identity
  /-- Tells proxies of one identity made at different times apart. -/
  serial : Nat
  value : Option α
  version : Lineage
  owner : Option String
  stamp : Stamp
  pendingWrites : Nat
  stats : ProxyStats

/-- A write in progress: the lineage it is based on, the one it proposes, and the owner of the
value it replaces. -/
structure WriteTicket where
  previous : Lineage
  next : Lineage
  owner : Option String

namespace Proxy

variable {α : Type}

/-- A proxy with nothing cached, to be loaded on first read. -/
def create (id : Identity) (serial : Nat) : Proxy α :=
  ⟨id, serial, none, Lineage.empty, none, .forceExpired, 0, {}⟩

/-- Whether a local write is in progress. -/
def isWritePending (p : Proxy α) : Bool := p.pendingWrites > 0

/-- Offer a value, stamping the proxy now; answers whether it was installed. An installed
value is also kept as an offline copy when `keepCopy` is set. -/
def apply (p : Proxy α) (b : Backing α) (remote : RemoteValue α) (keepCopy : Bool) :
    Proxy α × Backing α × Bool :=
  let p := { p with stamp := .since b.clock }
  if p.value.isSome && p.isWritePending then (p, b, false)
  else if p.value.isSome && p.version == remote.version then (p, b, false)
  else
    let p := { p with value := some remote.value, version := remote.version, owner := remote.owner }
    (p, if keepCopy then b.keepCopy p.id remote else b, true)

/-- A load failed: serve the cached value stamped now, or else the offline copy, or else fail. -/
def loadFailed (p : Proxy α) (b : Backing α) (err : Fault) :
    Proxy α × Backing α × Outcome (Option α) :=
  match p.value with
  | some v =>
    ({ p with stamp := .since b.clock, stats := { p.stats with staleServed := p.stats.staleServed + 1 } },
      b, .ok (some v))
  | none =>
    match b.offlineGet p.id with
    | some remote =>
      let p := { p with stats := { p.stats with offlineHits := p.stats.offlineHits + 1 } }
      let (p, b, _) := p.apply b remote false
      (p, b, .ok p.value)
    | none => (p, b, .error err)

/-- Take in what a load of the source found: a value is offered, an absent object clears the
cache unless a write is pending, and a failure falls back on the cached value or the offline
copy. -/
def settle (p : Proxy α) (b : Backing α) :
    Outcome (Option (RemoteValue α)) → Proxy α × Backing α × Outcome (Option α)
  | .ok (some remote) =>
    let (p, b, _) := p.apply b remote true
    (p, b, .ok p.value)
  | .ok none =>
    let p := if p.isWritePending then p else { p with value := none, version := .empty, owner := none }
    let p := { p with stamp := .since b.clock }
    (p, b, .ok p.value)
  | .error f => p.loadFailed b f

/-- Load from the source and take in what it found. -/
def reload (p : Proxy α) (b : Backing α) : Proxy α × Backing α × Outcome (Option α) :=
  let p := { p with stats := { p.stats with loads := p.stats.loads + 1 } }
  let (source, r) := b.source.load p.id
  p.settle { b with source } r

/-- Read under a policy: the answer, and whether a background reload is wanted. -/
def read (p : Proxy α) (b : Backing α) (policy : ExpiryPolicy) :
    Proxy α × Backing α × Outcome (Option α) × Bool :=
  match policy.freshness p.stamp b.clock with
  | .fresh => (p, b, .ok p.value, false)
  | .refresh => (p, b, .ok p.value, true)
  | .reload =>
    let (p, b, r) := p.reload b
    (p, b, r, false)

/-- A read that has to reload, once it holds the load lock: when another read has reloaded
meanwhile, the cached value is answered and the source is left alone. -/
def loadBlocking (p : Proxy α) (b : Backing α) (policy : ExpiryPolicy) :
    Proxy α × Backing α × Outcome (Option α) :=
  if policy.freshness p.stamp b.clock != .reload then (p, b, .ok p.value) else p.reload b

/-- A reload run by a loader: nothing when the value has become fresh meanwhile; a failure
is served stale or dropped. -/
def reloadInBackground (p : Proxy α) (b : Backing α) (policy : ExpiryPolicy) :
    Proxy α × Backing α :=
  if policy.freshness p.stamp b.clock == .fresh then (p, b)
  else
    let p := { p with stats := { p.stats with backgroundReloads := p.stats.backgroundReloads + 1 } }
    let (p, b, _) := p.reload b
    (p, b)

/-- Force the next read to reload; refused while a write is pending. -/
def expire (p : Proxy α) : Proxy α × Bool :=
  if p.isWritePending then (p, false) else ({ p with stamp := .forceExpired }, true)

/-- Treat the value as past its window; refused while a write is pending. -/
def weakExpire (p : Proxy α) : Proxy α × Bool :=
  if p.isWritePending then (p, false)
  else if p.stamp == .forceExpired then (p, true)
  else ({ p with stamp := .weakExpired }, true)

/-- Install a value pushed by the source, keeping the owner; ignored when its lineage is
cached already. -/
def updateValue (p : Proxy α) (b : Backing α) (value : α) (version : Lineage) :
    Proxy α × Backing α × Bool :=
  p.apply b ⟨value, version, p.owner⟩ true

/-- Start a local write by `node`: it is pending until finished. -/
def beginWrite (p : Proxy α) (node : String) (maxRun : Nat) : Proxy α × WriteTicket :=
  ({ p with pendingWrites := p.pendingWrites + 1 },
    ⟨p.version, p.version.append node false maxRun, p.owner⟩)

/-- Finish a local write with the source's answer. A stored value is cached, stamped now and
kept as an offline copy; a conflict expires the proxy. -/
def finishWrite (p : Proxy α) (b : Backing α) (t : WriteTicket) (value : α)
    (result : Outcome Lineage) : Proxy α × Backing α × Outcome Lineage :=
  let p := { p with pendingWrites := p.pendingWrites - 1 }
  match result with
  | .error f => (if f.isConflict then { p with stamp := .forceExpired } else p, b, .error f)
  | .ok stored =>
    let stats := { p.stats with writes := p.stats.writes + 1 }
    let p := { p with value := some value, version := stored, stamp := .since b.clock, stats }
    (p, b.keepCopy p.id ⟨value, stored, t.owner⟩, .ok stored)

end Proxy

/-- What every proxy of a registry shares. -/
structure ProxyOptions where
  /-- The node written into proposed lineages. -/
  node : String
  /-- Longest run of one node's tags kept in a lineage. -/
  maxRun : Nat
  policy : ExpiryPolicy
  /-- Every proxy runs its own reloads at once, instead of queueing them on one loader. -/
  privateLoaders : Bool

/-- One proxy per identity over a shared backing. -/
structure Registry (α : Type) where
  options : ProxyOptions
  backing : Backing α
  /-- Proxies in the order they were made. -/
  proxies : List (Proxy α)
  /-- Proxies made so far. -/
  made : Nat
  /-- Reloads waiting for the shared loader, by identity and proxy. -/
  queued : List (Identity × Nat)

namespace Registry

variable {α : Type}

/-- A registry with no proxies yet. -/
def create (options : ProxyOptions) (backing : Backing α) : Registry α :=
  ⟨options, backing, [], 0, []⟩

/-- Change the backing. -/
def onBacking (r : Registry α) (f : Backing α → Backing α) : Registry α :=
  { r with backing := f r.backing }

/-- Change the source. -/
def onSource (r : Registry α) (f : Source α → Source α) : Registry α :=
  r.onBacking fun b => { b with source := f b.source }

/-- The proxy of an identity, if one has been made. -/
def find? (r : Registry α) (id : Identity) : Option (Proxy α) := r.proxies.find? (·.id == id)

/-- The proxy of an identity, made on first use. -/
def proxy (r : Registry α) (id : Identity) : Registry α × Proxy α :=
  match r.find? id with
  | some p => (r, p)
  | none =>
    let p := Proxy.create id (r.made + 1)
    ({ r with proxies := r.proxies ++ [p], made := r.made + 1 }, p)

/-- Put a changed proxy back. -/
def put (r : Registry α) (p : Proxy α) : Registry α :=
  { r with proxies := r.proxies.map fun q => if q.serial == p.serial then p else q }

/-- Work on the proxy of an identity and the backing. -/
def withProxy {β : Type} (r : Registry α) (id : Identity)
    (f : Proxy α → Backing α → Proxy α × Backing α × β) : Registry α × β :=
  let (r, p) := r.proxy id
  let (p, b, x) := f p r.backing
  ({ r.put p with backing := b }, x)

/-- Run a background reload of a proxy now, if it is still registered. -/
def reloadNow (r : Registry α) (serial : Nat) : Registry α :=
  match r.proxies.find? (·.serial == serial) with
  | some p =>
    let (p, b) := p.reloadInBackground r.backing r.options.policy
    { r.put p with backing := b }
  | none => r

/-- Ask for a background reload: at once with private loaders, otherwise queued unless one
is queued for the identity already. -/
def schedule (r : Registry α) (id : Identity) (serial : Nat) : Registry α :=
  if r.options.privateLoaders then r.reloadNow serial
  else if r.queued.any (·.1 == id) then r
  else { r with queued := r.queued ++ [(id, serial)] }

/-- Read the value of an identity. -/
def value (r : Registry α) (id : Identity) : Registry α × Outcome (Option α) :=
  let (r, (res, wanted, serial)) := r.withProxy id fun p b =>
    let (p, b, res, wanted) := p.read b r.options.policy
    (p, b, (res, wanted, p.serial))
  (if wanted then r.schedule id serial else r, res)

/-- Run every queued reload. -/
def drain (r : Registry α) : Registry α :=
  r.queued.foldl (fun r q => r.reloadNow q.2) { r with queued := [] }

/-- Forget the proxy of an identity. -/
def remove (r : Registry α) (id : Identity) : Registry α × Bool :=
  ({ r with proxies := r.proxies.filter fun p => !(p.id == id) }, (r.find? id).isSome)

/-- Force every proxy to reload on its next read; answers how many were expired, proxies with a
pending write being skipped. -/
def expireAll (r : Registry α) : Registry α × Nat :=
  let results := r.proxies.map Proxy.expire
  ({ r with proxies := results.map (·.1) }, (results.filter (·.2)).length)

/-- Number of proxies. -/
def size (r : Registry α) : Nat := r.proxies.length

/-- Start a local write to an identity. -/
def beginWrite (r : Registry α) (id : Identity) : Registry α × WriteTicket :=
  r.withProxy id fun p b =>
    let (p, t) := p.beginWrite r.options.node r.options.maxRun
    (p, b, t)

/-- Store a started write in the source and finish it; a read-only source refuses it. -/
def finishWrite (r : Registry α) (id : Identity) (t : WriteTicket) (value : α) :
    Registry α × Outcome Lineage :=
  r.withProxy id fun p b =>
    if b.writable then
      let (source, result) := b.source.store id value t.previous t.next
      p.finishWrite { b with source } t value result
    else p.finishWrite b t value (.error (.notSupported "remote writes"))

/-- Write a value through to the source. -/
def write (r : Registry α) (id : Identity) (value : α) : Registry α × Outcome Lineage :=
  let (r, t) := r.beginWrite id
  r.finishWrite id t value

end Registry

end Stowage.Remote
