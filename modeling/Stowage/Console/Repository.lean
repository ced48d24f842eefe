import Stowage.Console.Basics
import Stowage.Console.Flusher
import Stowage.Repository.Cluster
/-!
Console scenarios on repositories: nodes sharing one store.

The objects are scripted: an identity, a field map, and counters of what happened to them.
Their record is their field map; a record whose field `decode_fail` is `true` cannot be
decoded, and one with a string field `decode_as` decodes to an object claiming that identity.
A reloaded copy is taken in (its fields copied) by objects made to take reloads in. Plain
objects do nothing on any hook and never take reloads in.

Every step answers with the changes its listeners heard during it.
-/
namespace Stowage.Console

open Stowage.Json
open Stowage.Version

structure Obj where
  id : Identity
  fields : List (String × Value)
  /-- Whether it takes reloaded copies in. -/
  absorbs : Bool
  deleted : Bool := false
  beforePersist : Nat := 0
  persisted : Nat := 0
  lastPersist : Option Lineage := none
  loaded : Option (Identity × Lineage × Option String) := none
  absorbed : Nat := 0
  deriving Inhabited

def decodeObj (absorbs : Bool) (id : Identity) (r : Record) : Outcome Obj := do
  if (r.get? "decode_fail").any (· == .bool true) then throw (.serialization "decode refused")
  let claimed ← match r.get? "decode_as" with
    | some (.str s) =>
      match Identity.parse s with
      | .ok claimed => pure claimed
      | .error e => throw (.serialization e.message)
    | _ => pure id
  return { id := claimed, fields := r.userFields, absorbs }

def objModel (plain : Bool) : ObjectModel Obj where
  identity o := o.id
  beforePersist o := if plain then o else { o with beforePersist := o.beforePersist + 1 }
  afterPersist o v := if plain then o else
    { o with persisted := o.persisted + 1, lastPersist := some v }
  afterLoad o id v owner := if plain then o else { o with loaded := some (id, v, owner) }
  absorb live peer :=
    if plain || !live.absorbs then none
    else some { live with fields := peer.fields, absorbed := live.absorbed + 1 }
  markDeleted o := if plain then o else { o with deleted := true }
  encode o := Record.ofJson (.obj o.fields)
  decode := decodeObj

def objView (plain : Bool) (n : Nat) (o : Obj) : Value :=
  let base := [("id", .str o.id.render), ("inst", .ofNat n), ("fields", .obj o.fields)]
  if plain then Value.ofFields base
  else Value.ofFields (base ++ [("deleted", .bool o.deleted),
    ("before_persist", .ofNat o.beforePersist), ("persisted", .ofNat o.persisted),
    ("last_persist", Value.ofOption (o.lastPersist.map Lineage.render)),
    ("loaded", match o.loaded with
      | some (id, v, owner) => Value.ofFields [("id", .str id.render), ("version", .str v.render),
          ("owner", Value.ofOption owner)]
      | none => .null),
    ("absorbed", .ofNat o.absorbed)])

def scenarioWallStart : Int := 1767225600000

structure ObjBench where
  cluster : Cluster Obj
  /-- Node names by number. -/
  labels : List String
  /-- Listener numbers by node and name, in registration order; removing a listener leaves
  its number here, so removing it again answers that nothing was removed. -/
  listenerIds : List ((Nat × String) × List Nat)
  plain : Bool

namespace ObjBench

def model (b : ObjBench) : ObjectModel Obj := objModel b.plain

def run {β : Type} (b : ObjBench) (op : ClusterOp Obj β) : ObjBench × Outcome β :=
  let (r, c) := op.run.run b.cluster
  ({ b with cluster := c }, r)

def nodeIndex (b : ObjBench) (name : String) : Except Value Nat :=
  match (b.labels.zipIdx.filter (·.1 == name)).getLast? with
  | some (_, i) => .ok i
  | none => .error (badInput ("no node " ++ name))

def handle (b : ObjBench) (h : String) : Except Value Nat :=
  match b.cluster.handles.lookup h with
  | some n => .ok n
  | none => .error (badInput ("no handle " ++ h))

def hold (b : ObjBench) (h : String) (n : Nat) : ObjBench :=
  { b with cluster := { b.cluster with handles := (h, n) :: b.cluster.handles.filter (·.1 != h) } }

def view (b : ObjBench) (n : Nat) : Value := objView b.plain n (b.cluster.obj n)

def deliveryView (b : ObjBench) (d : Delivery Obj) : Value :=
  Value.ofFields [("node", .str (b.labels.getD d.node "")), ("listener", .str d.listener),
    ("change", .str d.change.name), ("id", .str d.id.render),
    ("value", match d.value with
      | some (n, o) => objView b.plain n o
      | none => .null)]

end ObjBench

def storedView (r : Record) : Value :=
  .obj (r.fields.map fun kv => if kv.1 == "__modified" then (kv.1, .str "*") else kv)

def stampedRecord (step : Value) (id : Identity) (version : Lineage) : Except Value Record := do
  let fields := (step.field? "fields").getD (.obj [])
  let r ← match Record.ofJson fields with
    | .ok r => pure r
    | .error f => throw (faultAnswer f)
  let owner ← lift (strOpt step "owner")
  let modified ← match present? step "modified" with
    | some v => lift (readInstant v)
    | none => pure ⟨0, 0⟩
  return r.stamp id version modified owner

def readChangeKind (s : String) : Except Value ChangeKind :=
  match ChangeKind.ofName? s with
  | some k => .ok k
  | none => .error (badInput "unknown change kind")

def cacheStatsView (s : CacheStats) : Value :=
  Value.ofFields [("hits", .ofNat s.hits), ("misses", .ofNat s.misses), ("loads", .ofNat s.loads),
    ("evictions", .ofNat s.evictions), ("writebacks", .ofNat s.writebacks),
    ("dirty_count", .ofNat s.dirtyCount), ("hit_ratio", .ofFloat s.hitRatio)]

def nodeStep (b : ObjBench) (i : Nat) (what : String) (step : Value) :
    Except Value (ObjBench × Value) := do
  let m := b.model
  let answer {β : Type} (b : ObjBench) (op : ClusterOp Obj β) (shown : β → Value) :
      ObjBench × Value :=
    let (b, r) := b.run op
    (b, outcomeAnswer (r.map shown))
  match what with
  | "get" =>
    let id ← identityField step "id"
    let h := strLoose step "h"
    let (b, r) := b.run (Cluster.fetch m i id)
    match r with
    | .ok (some n) =>
      let b := match h with
        | some h => b.hold h n
        | none => b
      return (b, resultAnswer (b.view n))
    | .ok none => return (b, resultAnswer .null)
    | .error f => return (b, faultAnswer f)
  | "update" =>
    let n ← b.handle (← lift (str step "h"))
    return answer b (Cluster.update m i n) fun _ => .null
  | "persist" =>
    let n ← b.handle (← lift (str step "h"))
    return answer b (Cluster.persist m i n) fun v => .str v.render
  | "flush" =>
    let n ← b.handle (← lift (str step "h"))
    return answer b (Cluster.flush m i n) .bool
  | "flush_all" => return answer b (Cluster.flushAll m i) fun _ => .null
  | "close" => return answer b (Cluster.close m i) fun _ => .null
  | "remove" =>
    let id ← identityField step "id"
    return answer b (Cluster.remove m i id) .bool
  | "discard" =>
    let id ← identityField step "id"
    return answer b (Cluster.discardEntry i id) .bool
  | "is_dirty" =>
    let n ← b.handle (← lift (str step "h"))
    let id := (b.cluster.obj n).id
    return (b, resultAnswer (.bool ((b.cluster.node i).cache.isDirty id)))
  | "version" =>
    let id ← identityField step "id"
    return (b, resultAnswer (Value.ofOption (((b.cluster.node i).cache.version? id).map
      Lineage.render)))
  | "new_id" =>
    let pfx ← lift (str step "prefix")
    return answer b (Cluster.newId i pfx) fun id => .str id.render
  | "add_listener" =>
    let name ← lift (str step "name")
    let (b, r) := b.run (Cluster.addListener i name)
    match r with
    | .ok n =>
      let ids := ((b.listenerIds.lookup (i, name)).getD []) ++ [n]
      let b := { b with listenerIds := ((i, name), ids) :: b.listenerIds.filter (·.1 != (i, name)) }
      return (b, resultAnswer .null)
    | .error f => return (b, faultAnswer f)
  | "remove_listener" =>
    let name ← lift (str step "name")
    match ((b.listenerIds.lookup (i, name)).getD []).getLast? with
    | none => throw (badInput "unknown listener")
    | some n => return answer b (Cluster.removeListener i n) .bool
  | "external" =>
    let kind ← readChangeKind (← lift (str step "change"))
    let id ← identityField step "id"
    return answer b (Cluster.onExternal m i kind id) fun _ => .null
  | "find_ids" =>
    let q ← lift (need step "query" >>= readQuery)
    return answer b (Cluster.findIds i q) fun ids => .arr (ids.map fun id => .str id.render)
  | "find" =>
    let q ← lift (need step "query" >>= readQuery)
    let (b, r) := b.run (Cluster.find m i q)
    return (b, outcomeAnswer (r.map fun ns => .arr (ns.map b.view)))
  | "evict_idle" => return answer b (Cluster.evictIdle m i) .ofNat
  | "pending" =>
    return (b, resultAnswer (.ofNat (((b.cluster.node i).flusher.map (·.pending.size)).getD 0)))
  | "stats" => return (b, resultAnswer (cacheStatsView (b.cluster.node i).cache.stats))
  | "flusher_stats" =>
    return (b, resultAnswer (match (b.cluster.node i).flusher with
      | some f => flusherStatsView f.stats
      | none => .null))
  | "info" =>
    let r := b.cluster.node i
    return (b, resultAnswer (Value.ofFields [("kind", .str r.kind), ("node", .str r.node),
      ("absorb", .bool r.absorbs)]))
  | other => throw (badInput ("unknown persister step " ++ other))

def benchStep (b : ObjBench) (what : String) (step : Value) : Except Value (ObjBench × Value) := do
  let m := b.model
  let storeAnswer {β : Type} (b : ObjBench) (op : ClusterOp Obj β) (shown : β → Value) :
      ObjBench × Value :=
    let (b, r) := b.run op
    (b, outcomeAnswer (r.map shown))
  let change (b : ObjBench) (n : Nat) (f : Obj → Obj) : ObjBench :=
    { b with cluster := b.cluster.modifyObj n f }
  match what with
  | "sleep" =>
    let ms ← lift (u64 step "ms")
    let c := b.cluster
    let c := (List.range c.nodes.length).foldl (fun c i =>
      if (c.node i).flusher.isSome then (Cluster.flushHost m i).sleep c c.now ms else c) c
    return ({ b with cluster := { c with now := c.now + ms } }, resultAnswer .null)
  | "new" =>
    let id ← identityField step "id"
    let fields := match step.field? "fields" with
      | some (.obj fs) => fs
      | _ => []
    let absorbs ← lift (boolOr step "absorb" true)
    let (c, n) := b.cluster.make { id, fields, absorbs }
    let b := { b with cluster := c }
    match lift (str step "h") with
    | .ok h =>
      let b := b.hold h n
      return (b, resultAnswer (b.view n))
    | .error v => return (b, v)
  | "set" =>
    let n ← b.handle (← lift (str step "h"))
    let name ← lift (str step "field")
    let v ← lift (need step "value")
    let b := change b n fun o => { o with fields := Value.insertField name v o.fields }
    return (b, resultAnswer (b.view n))
  | "unset" =>
    let n ← b.handle (← lift (str step "h"))
    let name ← lift (str step "field")
    let b := change b n fun o => { o with fields := o.fields.filter (·.1 != name) }
    return (b, resultAnswer (b.view n))
  | "obj" =>
    let n ← b.handle (← lift (str step "h"))
    return (b, resultAnswer (b.view n))
  | "drop" =>
    let h ← lift (str step "h")
    let had := (b.cluster.handles.lookup h).isSome
    let c := b.cluster
    return ({ b with cluster := { c with handles := c.handles.filter (·.1 != h) } },
      resultAnswer (.bool had))
  | "same" =>
    let known (h : String) : Except Value Nat :=
      match b.cluster.handles.lookup h with
      | some n => .ok n
      | none => .error (badInput "unknown handle")
    let x ← known (← lift (str step "h"))
    let y ← known (← lift (str step "h2"))
    return (b, resultAnswer (.bool (x == y)))
  | "backend_fail" =>
    let n ← lift (u32 step "count")
    let c := b.cluster
    return ({ b with cluster := { c with backend := c.backend.failNext n } }, resultAnswer .null)
  | "backend_record" =>
    let id ← identityField step "id"
    return (b, resultAnswer (((b.cluster.backend.get? id).map storedView).getD .null))
  | "backend_len" =>
    let s := b.cluster.backend
    return (b, resultAnswer (Value.ofFields [("len", .ofNat s.size),
      ("is_empty", .bool (s.size == 0)), ("writes", .ofNat s.writes)]))
  | "backend_load" =>
    let id ← identityField step "id"
    return storeAnswer b (Cluster.onBackend (·.load id)) fun l =>
      match l with
      | some l => Value.ofFields [("record", storedView l.record), ("version", .str l.version.render),
          ("owner", Value.ofOption l.owner)]
      | none => .null
  | "backend_exists" =>
    let id ← identityField step "id"
    return storeAnswer b (Cluster.onBackend (·.exists? id)) .bool
  | "backend_delete" =>
    let id ← identityField step "id"
    return storeAnswer b (Cluster.storeDelete m id) .bool
  | "backend_create" =>
    let id ← identityField step "id"
    let version := Lineage.parse (← lift (str step "version"))
    let r ← stampedRecord step id version
    return storeAnswer b (Cluster.storeCreate m id r) fun v => .str v.render
  | "backend_save" =>
    let id ← identityField step "id"
    let version := Lineage.parse (← lift (str step "version"))
    let previous := Lineage.parse (← lift (str step "previous"))
    let r ← stampedRecord step id version
    return storeAnswer b (Cluster.storeSave m id r previous) fun v => .str v.render
  | "backend_find" =>
    let q ← lift (need step "query" >>= readQuery)
    return storeAnswer b (Cluster.onBackend (·.findIds q)) fun ids =>
      .arr (ids.map fun id => .str id.render)
  | other => throw (badInput ("unknown persister step " ++ other))

/-- The steps that act on one node, named by the step's `node`; every other step acts on the
shared store or on held objects. -/
def nodeSteps : List String :=
  ["get", "update", "persist", "flush", "flush_all", "close", "remove", "discard", "is_dirty",
    "version", "new_id", "add_listener", "remove_listener", "external", "find_ids", "find",
    "evict_idle", "pending", "stats", "flusher_stats", "info"]

/-- One step of a repository scenario, with the changes heard during it; the flushers run
what is due afterwards. -/
def objStep (b : ObjBench) (step : Value) : ObjBench × Value :=
  let before := b.cluster.deliveries.length
  let run : Except Value (ObjBench × Value) := do
    let what ← lift (str step "do")
    if nodeSteps.contains what then nodeStep b (← b.nodeIndex (← lift (str step "node"))) what step
    else benchStep b what step
  let (b', answer) := match run with
    | .ok res => res
    | .error v => (b, v)
  let m := b'.model
  let (b', _) := b'.run ((List.range b'.labels.length).forM fun i => Cluster.settle m i)
  let fresh := (b'.cluster.deliveries.take (b'.cluster.deliveries.length - before)).reverse
  let answer := match answer with
    | .obj fields => .obj (Value.insertField "events" (.arr (fresh.map b'.deliveryView)) fields)
    | other => other
  (b', answer)

/-- The settings of a node: defaults with the node's name and hour-long flusher timers, under
the scenario's configuration, section by section. -/
def nodeSettings (name : String) (config : Value) : Except Value Settings :=
  let base : Settings := {
    node := { id := name }
    flusher := { delayMs := 3600000, periodMs := 3600000, oomBackoffMs := 0 } }
  lift (readSettings (mergeJson base.toJson config))

def buildNode (kind : String) (c : Cluster Obj) (spec : Value) : Except Value Repository := do
  let name ← lift (str spec "name")
  let s ← nodeSettings name ((present? spec "config").getD (.obj []))
  let feed := match spec.field? "watch" with
    | some (.bool false) => Feed.none
    | some (.str "broken") => Feed.broken
    | _ => Feed.store
  let keys ← match spec.field? "keys" with
    | some _ => some <$> lift (strList spec "keys")
    | none => pure none
  let absorbs ← lift (boolOr spec "absorb" true)
  let narrow := strLoose spec "driver" == some "minimal"
  let scheme := match keys with
    | some keys => KeyScheme.scripted keys
    | none => KeyScheme.counting
  match Repository.build kind s feed (.start scheme) absorbs narrow c.now with
  | .ok r => return r
  | .error f => throw (faultAnswer f)

/-- `persister`: nodes sharing one store, and steps on them. -/
def persisterSteps (cmd : Value) : Decode Value := do
  let kind ← str cmd "kind"
  let plain ← boolOr cmd "plain" false
  let specs ← arr cmd "nodes"
  let steps ← arr cmd "steps"
  let start : Cluster Obj := ⟨Backend.empty, [], #[], [], [], [], 0, scenarioWallStart⟩
  let built : Except Value (Cluster Obj × List String) := specs.foldlM (fun (c, labels) spec => do
    let r ← buildNode kind c spec
    let name ← lift (str spec "name")
    return ({ c with nodes := c.nodes ++ [r] }, labels ++ [name])) (start, [])
  match built with
  | .error v => return v
  | .ok (c, labels) =>
    let b : ObjBench := ⟨c, labels, [], plain⟩
    return .arr (runSteps b steps objStep).2

end Stowage.Console
