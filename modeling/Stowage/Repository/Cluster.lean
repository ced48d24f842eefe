import Stowage.Repository.Basic
import Stowage.Flusher.Worker
/-!
Operations of the nodes of a cluster.

Reads go through the node's cache, so each identity has one live object per node. A change to
an object marks its entry dirty and is written through at once, or queued in the node's
write-behind flusher; an identity new to the cache is created in the store right away. Every
write carries the lineage the object was based on, and the store refuses it when another
writer got there first.

The store tells the nodes that subscribed to a kind about every change, while the writing call
is still running. A node ignores changes to identities it is writing itself; otherwise a new
or updated record is reloaded into the cached entry (offered to the live object, which takes
it in or is replaced), a deleted or hidden one leaves the cache, and an unknown change expires
the entry. Listeners then hear of the change.
-/
namespace Stowage.Cluster

open Stowage.Version

variable {ω : Type} [Inhabited ω] (m : ObjectModel ω)

/-- Succeed or fail with an outcome. -/
def lift {β : Type} (x : Outcome β) : ClusterOp ω β :=
  match x with
  | .ok a => pure a
  | .error f => throw f

/-- Run an operation, answering its outcome instead of failing. -/
def attempt {β : Type} (x : ClusterOp ω β) : ClusterOp ω (Outcome β) := ExceptT.lift x.run

/-- A call to the store. -/
def onBackend {β : Type} (f : Backend → Backend × Outcome β) : ClusterOp ω β := do
  let c ← get
  let (b, r) := f c.backend
  set { c with backend := b }
  lift r

/-- Change a node. -/
def onNode (i : Nat) (f : Repository → Repository) : ClusterOp ω Unit :=
  modify fun c => c.modifyNode i f

/-- Tell objects they were deleted. -/
def tell (insts : List Nat) : ClusterOp ω Unit :=
  modify fun c => insts.foldl (fun c n => c.modifyObj n m.markDeleted) c

/-- A cache operation of node `i` that may tell held objects they were deleted. -/
def onCache (i : Nat) (f : Cache → (Nat → Bool) → Cache × List Nat) : ClusterOp ω Unit := do
  let c ← get
  let (cache, told) := f (c.node i).cache (c.heldBeyond i)
  set (c.modifyNode i fun r => { r with cache })
  tell m told

/-- The cached object of an identity on node `i`. -/
def peek (i : Nat) (id : Identity) : ClusterOp ω (Option Nat) :=
  return ((← get).node i).cache.peek id

/-- Take an identity's entry out of node `i`'s cache, answering its object. -/
def detach (i : Nat) (id : Identity) : ClusterOp ω (Option Nat) := do
  let c ← get
  let (cache, removed) := (c.node i).cache.detachEntry id
  set (c.modifyNode i fun r => { r with cache })
  return removed

/-- Deliver a change to node `i`'s listeners, in order, with the object as it is now. -/
def fanOut (i : Nat) (kind : ChangeKind) (id : Identity) (value : Option Nat) :
    ClusterOp ω Unit :=
  modify fun c =>
    let v := value.map fun n => (n, c.obj n)
    let sent := (c.node i).listeners.snapshot.map fun l => (⟨i, l, kind, id, v⟩ : Delivery ω)
    { c with deliveries := sent.reverse ++ c.deliveries }

/-- Load a record for node `i` and decode it into a new object, answering it with its lineage;
deleted records, and records hidden from the node, are absent. -/
def load (i : Nat) (id : Identity) : ClusterOp ω (Option (Nat × Lineage)) := do
  match ← onBackend (·.load id) with
  | none => return none
  | some l =>
    let r := (← get).node i
    if l.version.isDeleted || !r.visible l.owner then return none
    let o ← lift (m.decode r.absorbs id l.record)
    let n ← modifyGet fun c => let (c, n) := c.make o; (n, c)
    if m.identity o != id then
      throw (.invariant ("record " ++ id.render ++ " decoded to " ++ (m.identity o).render))
    modify fun c => c.modifyObj n fun o => m.afterLoad o id l.version l.owner
    return some (n, l.version)

/-- The live object of an identity on node `i`, loaded on a miss; absent when the record is
absent, deleted or hidden. -/
def fetch (i : Nat) (id : Identity) : ClusterOp ω (Option Nat) := do
  let r := (← get).node i
  lift (r.checkKind id)
  if !r.visible id.owner then return none
  let c ← get
  match r.cache.hit? id c.now with
  | some (cache, n) =>
    onNode i fun r => { r with cache }
    return some n
  | none =>
    onNode i fun r => { r with cache := r.cache.startLoad }
    match ← load m i id with
    | none =>
      onCache m i fun cache held => cache.discardExpired id held
      return none
    | some (n, v) =>
      let now := (← get).now
      onCache m i fun cache held => cache.install id n v now held
      return some n

/-- Apply a change another writer made, on node `i`. -/
def onExternal (i : Nat) (kind : ChangeKind) (id : Identity) : ClusterOp ω Unit := do
  let r := (← get).node i
  if id.kind != r.kind || r.isOwnWrite id then return
  match kind with
  | .new | .update =>
    if r.cache.contains id then
      match ← load m i id with
      | some (peer, version) =>
        let c ← get
        let cached := ((c.node i).cache.version? id).getD Lineage.empty
        if cached.compare version == .same then return
        match (c.node i).cache.offer id with
        | .error _ => pure ()
        | .ok live =>
          match m.absorb (c.obj live) (c.obj peer) with
          | some taken =>
            set ((c.modifyObj live fun _ => taken).modifyNode i fun r =>
              { r with cache := r.cache.refresh id version none })
          | none => onNode i fun r => { r with cache := r.cache.refresh id version (some peer) }
      | none =>
        let removed ← detach i id
        tell m removed.toList
    fanOut i kind id (← peek i id)
  | .delete =>
    let removed ← detach i id
    tell m removed.toList
    fanOut i .delete id removed
  | .unknown =>
    onNode i fun r => { r with cache := (r.cache.expire id).1 }
    fanOut i .unknown id (← peek i id)

/-- Count a stored change and deliver it to the kind's subscribers; their failures are theirs. -/
def notify (kind : ChangeKind) (id : Identity) : ClusterOp ω Unit := do
  let c ← get
  let (b, subscribers) := c.backend.changed id
  set { c with backend := b }
  subscribers.forM fun j => do
    let _ ← attempt (onExternal m j kind id)

/-- Run a store call of node `i` on an identity, so that the change it causes is not applied
back to the node. -/
def ownWrite {β : Type} (i : Nat) (id : Identity) (call : ClusterOp ω β) : ClusterOp ω β := do
  onNode i fun r => r.ownWriteStep id true
  let result ← attempt call
  onNode i fun r => r.ownWriteStep id false
  lift result

/-- Create a record in the store. -/
def storeCreate (id : Identity) (record : Record) : ClusterOp ω Lineage := do
  let v ← onBackend (·.createNew id record)
  notify m .new id
  return v

/-- Save a record in the store. -/
def storeSave (id : Identity) (record : Record) (previous : Lineage) : ClusterOp ω Lineage := do
  let v ← onBackend (·.save id record previous)
  notify m .update id
  return v

/-- Delete a record from the store. -/
def storeDelete (id : Identity) : ClusterOp ω Bool := do
  let gone ← onBackend (·.delete id)
  if gone then notify m .delete id
  return gone

/-- The record of object `n` stamped for a write of `version`. -/
def encode (id : Identity) (n : Nat) (version : Lineage) : ClusterOp ω Record := do
  modify fun c => c.modifyObj n m.beforePersist
  let c ← get
  let record ← lift (m.encode (c.obj n))
  return record.stamp id version c.clock id.owner

/-- Create object `n` in the store from node `i`, answering the stored lineage. -/
def create (i : Nat) (id : Identity) (n : Nat) : ClusterOp ω Lineage := do
  let r := (← get).node i
  let record ← encode m id n (Lineage.empty.append r.node false r.maxRun)
  let stored ← ownWrite i id (storeCreate m id record)
  modify fun c => c.modifyObj n fun o => m.afterPersist o stored
  return stored

/-- Record a change of object `n` in node `i`'s cache: a cached entry becomes dirty and the
lineage it is based on is answered; an identity new to the cache is created in the store and
cached clean (answered `true`). -/
def markUpdating (i : Nat) (id : Identity) (n : Nat) : ClusterOp ω (Lineage × Bool) := do
  let c ← get
  match (c.node i).cache.markExisting id n c.now with
  | some (.ok (cache, previous)) =>
    onNode i fun r => { r with cache }
    return (previous, false)
  | some (.error f) => throw f
  | none =>
    if (c.node i).cache.wasEvicted id n then throw (Cache.evictedFault id)
    let stored ← create m i id n
    let now := (← get).now
    onCache m i fun cache held => cache.insert id n stored .clean now held
    return (stored, true)

/-- Save object `n` as node `i`'s next revision of an identity, based on lineage `previous`:
the stored record carries the node's tag on top of it. Answers the stored lineage. -/
def writeBack (i : Nat) (id : Identity) (n : Nat) (previous : Lineage) : ClusterOp ω Lineage := do
  let r := (← get).node i
  let record ← encode m id n (previous.append r.node false r.maxRun)
  let stored ← ownWrite i id (storeSave m id record previous)
  modify fun c => c.modifyObj n fun o => m.afterPersist o stored
  return stored

/-- Write node `i`'s entry of an identity if it is dirty; `false` when there was nothing to
write. -/
def write (i : Nat) (id : Identity) : ClusterOp ω Bool := do
  let c ← get
  match (c.node i).cache.beginFlush id with
  | none => return false
  | some (cache, t) =>
    onNode i fun r => { r with cache }
    let result ← attempt (writeBack m i id t.inst t.previous)
    let c ← get
    let (cache, written) := (c.node i).cache.finishFlush id t result
    set (c.modifyNode i fun r => { r with cache })
    let written ← lift written
    if written then fanOut i .update id (← peek i id)
    return written

/-- Node `i`'s flusher in the cluster: its tasks write identities. -/
def flushHost (i : Nat) : FlushHost (Cluster ω) Identity Identity where
  flusher c := (c.node i).flusher.getD default
  update c f := c.modifyNode i fun r => { r with flusher := some f }
  run c id :=
    let (result, c) := (write m i id).run.run c
    (c, id, .finished (result.map fun _ => ()))

/-- Drop a queued write of an identity. -/
def cancelPending (i : Nat) (id : Identity) : ClusterOp ω Unit :=
  onNode i fun r => { r with flusher := r.flusher.map fun f => (f.cancel id).1 }

/-- The identity of object `n`, of node `i`'s kind. -/
def identityFor (i : Nat) (n : Nat) : ClusterOp ω Identity := do
  let c ← get
  let id := m.identity (c.obj n)
  lift ((c.node i).checkKind id)
  return id

/-- Record a change of object `n` on node `i` and schedule its write; a new identity is created
at once. -/
def update (i : Nat) (n : Nat) : ClusterOp ω Unit := do
  let id ← identityFor m i n
  let (_, created) ← markUpdating m i id n
  if created then
    fanOut i .new id (← peek i id)
    return
  let c ← get
  match (c.node i).flusher with
  | some f =>
    match f.enqueue id id c.now with
    | (f, .queued) => onNode i fun r => { r with flusher := some f }
    | (_, .runNow) => discard <| write m i id
  | none => discard <| write m i id

/-- Write object `n` through now, answering the stored lineage. -/
def persist (i : Nat) (n : Nat) : ClusterOp ω Lineage := do
  let id ← identityFor m i n
  let (previous, created) ← markUpdating m i id n
  if created then
    fanOut i .new id (← peek i id)
    return previous
  cancelPending i id
  discard <| write m i id
  return (((← get).node i).cache.version? id).getD Lineage.empty

/-- Write object `n` now if it is dirty. -/
def flush (i : Nat) (n : Nat) : ClusterOp ω Bool := do
  let id ← identityFor m i n
  cancelPending i id
  write m i id

/-- Run every queued write of node `i`, retries included. -/
def flushAll (i : Nat) : ClusterOp ω Unit :=
  modify fun c => if (c.node i).flusher.isSome then (flushHost m i).flushNow c c.now else c

/-- Drain node `i`'s queued writes and stop its flusher. -/
def close (i : Nat) : ClusterOp ω Unit :=
  modify fun c => if (c.node i).flusher.isSome then (flushHost m i).close c c.now else c

/-- Let node `i`'s flusher run what is due now. -/
def settle (i : Nat) : ClusterOp ω Unit :=
  modify fun c =>
    if (c.node i).flusher.isSome then (flushHost m i).work c c.now FlushHost.turnFuel else c

/-- Delete a record; `false` when the store had none. The cached object is told it was
deleted. -/
def remove (i : Nat) (id : Identity) : ClusterOp ω Bool := do
  lift (((← get).node i).checkKind id)
  let removed ← detach i id
  tell m removed.toList
  cancelPending i id
  let deleted ← ownWrite i id (storeDelete m id)
  if deleted then fanOut i .delete id removed
  return deleted

/-- Throw away local changes of an identity; whether it was cached. -/
def discardEntry (i : Nat) (id : Identity) : ClusterOp ω Bool := do
  cancelPending i id
  return (← detach i id).isSome

/-- Whether a record is stored, as node `i` can tell: a narrow node loads it. -/
def stored (i : Nat) (id : Identity) : ClusterOp ω Bool := do
  if ((← get).node i).narrow then return (← onBackend (·.load id)).isSome
  onBackend (·.exists? id)

/-- Try up to `tries` generated identities. -/
def freshId (i : Nat) (pfx : String) : Nat → ClusterOp ω (Option Identity)
  | 0 => return none
  | tries + 1 => do
    let r := (← get).node i
    let (keys, key) := r.keys.next pfx
    onNode i fun r => { r with keys }
    let id ← match Identity.make r.kind key with
      | .ok id => pure id
      | .error e => throw (Fault.ofIdentity e)
    let id ← if r.settings.ownerOnly then
        match id.withOwner r.node with
        | .ok id => pure id
        | .error e => throw (Fault.ofIdentity e)
      else pure id
    if !r.settings.checkDuplicateIds then return some id
    if !((← get).node i).cache.contains id then
      if !(← stored i id) then return some id
    freshId i pfx tries

/-- A generated identity not yet in use. -/
def newId (i : Nat) (pfx : String) : ClusterOp ω Identity := do
  let attempts := max ((← get).node i).settings.idRetries 1
  match ← freshId i pfx attempts with
  | some id => return id
  | none => throw (.idDuplicate attempts)

/-- Register a listener on node `i`, answering its number; the first one subscribes the node
to the store. A failed subscription leaves the listener registered, and the next listener
tries again. -/
def addListener (i : Nat) (name : String) : ClusterOp ω Nat := do
  let r := (← get).node i
  let (listeners, n) := r.listeners.add name
  onNode i fun r => { r with listeners }
  if r.feedStarted then return n
  match r.feed with
  | .none => return n
  | .store =>
    modify fun c => { c.modifyNode i fun r => { r with feedStarted := true } with
      backend := c.backend.watch r.kind i }
    return n
  | .broken => throw (.notSupported ("change feed for " ++ r.kind))

/-- Unregister a listener of node `i`. -/
def removeListener (i : Nat) (n : Nat) : ClusterOp ω Bool := do
  let (listeners, removed) := ((← get).node i).listeners.remove n
  onNode i fun r => { r with listeners }
  return removed

/-- Identities a query selects, as node `i` sees them. -/
def findIds (i : Nat) (q : Query) : ClusterOp ω (List Identity) := do
  let r := (← get).node i
  if q.kind != r.kind then
    throw (.invalidArgument ("query for " ++ q.kind ++ " sent to the " ++ r.kind ++ " persister"))
  lift q.validate
  if r.narrow then throw (.notSupported "identity search")
  let ids ← onBackend (·.findIds q)
  return ids.filter fun id => r.visible id.owner

/-- Objects a query selects, through node `i`'s cache; objects found so far are held while the
rest are fetched. -/
def find (i : Nat) (q : Query) : ClusterOp ω (List Nat) := do
  let ids ← findIds i q
  let saved := (← get).pinned
  let result ← attempt (ids.foldlM (fun found id => do
    match ← fetch m i id with
    | some n =>
      modify fun c => { c with pinned := n :: c.pinned }
      return found ++ [n]
    | none => return found) [])
  modify fun c => { c with pinned := saved }
  lift result

/-- Evict clean entries of node `i` idle past the timeout, answering how many. -/
def evictIdle (i : Nat) : ClusterOp ω Nat := do
  let c ← get
  let (cache, count, told) := (c.node i).cache.sweep c.now (c.heldBeyond i)
  set (c.modifyNode i fun r => { r with cache })
  tell m told
  return count

end Stowage.Cluster
