import Stowage.Repository.Cluster
import Stowage.Remote.Proxy
import Stowage.Random.Uniform
import Stowage.Soak.Account
/-!
The soak workload: several nodes share one store and drive accounts and remote quotes.

Node `i` is named after the configured node id with `-i`, watches the store and counts every
change its listener hears. The first node creates the accounts, each with a generated key
behind `acct-`. Each quote `q0`, `q1`, … starts at price 100 with the lineage `feed+1`.

Every node then makes its operations, each drawn from its own generator seeded with the run's
seed plus the node's number. A roll below 100 picks the operation:

* below 60, a deposit of 1 to 100 into one of the node's own accounts (those whose position is
  the node's number modulo the node count), written behind;
* below 80, a transfer of 1 to 100 into any account, written through; a write lost to a
  conflict is thrown away and redone, three attempts in all;
* below 95, a quote read through the proxies; one time in ten the feed first moves the quote on
  by less than one either way, under a new `feed` tag;
* otherwise every queued write is run.

The proxies check the settings once the accounts exist. A failed operation is counted. After
its operations a node runs its queued writes; then every node is closed. An account still dirty
on some node was stranded by a lost background write: it is counted and thrown away. Every
stored account's lineage is then checked against the same-node run cap.

Time stands still during a run, so no timer fires and no quote outlives its window. The nodes
take turns, one operation or one run of queued writes at a time, in an order the run is given
(`runWith`); `run` lets each node make all its operations in turn. When the nodes share
accounts, only the counts that do not depend on how their operations interleave are
meaningful (deposits, quote reads, stored records).
-/
namespace Stowage.Soak

open Stowage.Version
open Stowage.Remote
open Stowage.Random

/-- The shape of a run. -/
structure SoakOptions where
  nodes : Nat
  accounts : Nat
  operations : Nat
  quotes : Nat
  seed : UInt64
  deriving Inhabited

/-- What one node counts during a run. -/
structure NodeCounters where
  deposits : Nat := 0
  persists : Nat := 0
  conflicts : Nat := 0
  failures : Nat := 0
  quoteReads : Nat := 0
  deriving Inhabited

/-- What a run reports about a node. -/
structure NodeReport where
  node : String
  deposits : Nat
  persists : Nat
  conflicts : Nat
  failures : Nat
  quoteReads : Nat
  changeEvents : Nat
  cacheHitRatio : Float
  cacheLoads : Nat
  flushed : Nat
  coalesced : Nat

/-- What a run reports. -/
structure SoakReport where
  nodes : List NodeReport
  storedRecords : Nat
  stranded : Nat
  backendWrites : Nat
  longestLineage : Nat
  capViolations : Nat
  quoteLoads : Nat

/-- A run is healthy when no stored lineage broke the run cap. -/
def SoakReport.isHealthy (r : SoakReport) : Bool := r.capViolations == 0

/-- The kind of quote identities. -/
def quoteKind : String := "quote"

/-- What a node does at one turn of a run: its next operation, or the run of its queued writes
that ends its part. -/
inductive Move where
  | operate
  | flush
  deriving Inhabited

/-- The state of a run: the nodes, the quote feed, the identities in play and the tallies. -/
structure Fleet where
  cluster : Cluster Account
  registry : Registry Float
  accounts : Array Identity
  quotes : Array Identity
  counters : Array NodeCounters

/-- The wall clock during a run, which stands still: the first of January 2026. -/
def soakWallStart : Int := 1767225600000

/-- The longest same-node run that lineages the feed writes may keep. -/
def feedMaxRun : Nat := Nat.pow 2 64 - 1

namespace Fleet

/-- Run a cluster operation. -/
def onCluster {β : Type} (w : Fleet) (op : ClusterOp Account β) : Fleet × Outcome β :=
  let (r, c) := op.run.run w.cluster
  ({ w with cluster := c }, r)

/-- Change a node's counters. -/
def count (w : Fleet) (i : Nat) (f : NodeCounters → NodeCounters) : Fleet :=
  { w with counters := w.counters.modify i f }

/-- The number of nodes. -/
def nodeCount (w : Fleet) : Nat := w.cluster.nodes.length

/-- Add to an account's balance. -/
def credit (w : Fleet) (n : Nat) (amount : Int) : Fleet :=
  { w with cluster := w.cluster.modifyObj n fun a => { a with balance := a.balance + amount } }

/-- A deposit into one of node `i`'s own accounts, written behind. -/
def deposit (w : Fleet) (i : Nat) (g : ChaCha) : Fleet × ChaCha × Outcome Unit :=
  let own := (w.accounts.toList.zipIdx.filter fun (_, k) => k % w.nodeCount == i).map (·.1)
  if own.isEmpty then (w, g, .ok ())
  else
    let (k, g) := g.position own.length
    let id := own.getD k default
    match w.onCluster (Cluster.fetch Account.model i id) with
    | (w, .error f) => (w, g, .error f)
    | (w, .ok none) => (w, g, .ok ())
    | (w, .ok (some n)) =>
      let (amount, g) := g.intThrough true 1 100
      let w := (w.credit n amount).count i fun c => { c with deposits := c.deposits + 1 }
      let (w, r) := w.onCluster (Cluster.update Account.model i n)
      (w, g, r)

/-- Credit an account and write it through, redoing the change after a lost write, at most
`tries` times. -/
def transferTries (i : Nat) (id : Identity) (amount : Int) : Nat → Fleet → Fleet × Outcome Unit
  | 0, w => (w, .ok ())
  | tries + 1, w =>
    match w.onCluster (Cluster.fetch Account.model i id) with
    | (w, .error f) => (w, .error f)
    | (w, .ok none) => (w, .ok ())
    | (w, .ok (some n)) =>
      match (w.credit n amount).onCluster (Cluster.persist Account.model i n) with
      | (w, .ok _) => (w.count i fun c => { c with persists := c.persists + 1 }, .ok ())
      | (w, .error f) =>
        if f.isConflict then
          let w := w.count i fun c => { c with conflicts := c.conflicts + 1 }
          let (w, _) := w.onCluster (Cluster.discardEntry (ω := Account) i id)
          transferTries i id amount tries w
        else (w, .error f)

/-- A transfer into any account, written through. -/
def transfer (w : Fleet) (i : Nat) (g : ChaCha) : Fleet × ChaCha × Outcome Unit :=
  if w.accounts.isEmpty then (w, g, .ok ())
  else
    let (k, g) := g.position w.accounts.size
    let id := w.accounts.getD k default
    let (amount, g) := g.intThrough true 1 100
    let (w, r) := transferTries i id amount 3 w
    (w, g, r)

/-- A quote read through the proxies, after the feed perhaps moved the quote on. -/
def readQuote (w : Fleet) (i : Nat) (g : ChaCha) : Fleet × ChaCha × Outcome Unit :=
  if w.quotes.isEmpty then (w, g, .ok ())
  else
    let (k, g) := g.position w.quotes.size
    let id := w.quotes.getD k default
    let (moves, g) := g.chance 0.1
    let (w, g) :=
      if moves then
        match w.registry.backing.source.current id with
        | some current =>
          let version := current.version.append "feed" false feedMaxRun
          let (delta, g) := g.float (-1.0) 1.0
          let registry := w.registry.onSource fun s =>
            s.put id ⟨current.value + delta, version, none⟩
          ({ w with registry }, g)
        | none => (w, g)
      else (w, g)
    let (registry, r) := w.registry.value id
    let w := { w with registry := registry.drain }
    match r with
    | .ok _ => (w.count i fun c => { c with quoteReads := c.quoteReads + 1 }, g, .ok ())
    | .error f => (w, g, .error f)

/-- Run every queued write of node `i`. -/
def flushAll (w : Fleet) (i : Nat) : Fleet := (w.onCluster (Cluster.flushAll Account.model i)).1

/-- One operation of node `i`. -/
def step (i : Nat) (w : Fleet) (g : ChaCha) : Fleet × ChaCha :=
  let (roll, g) := g.intBetween false 0 100
  let (w, g, r) :=
    if roll < 60 then w.deposit i g
    else if roll < 80 then w.transfer i g
    else if roll < 95 then w.readQuote i g
    else (w.flushAll i, g, .ok ())
  match r with
  | .ok () => (w, g)
  | .error _ => (w.count i fun c => { c with failures := c.failures + 1 }, g)

/-- Node `i` takes a turn: its next operation, drawn from its own generator among `gens`, or its
queued writes. -/
def turn (p : Fleet × (Nat → ChaCha)) (t : Nat × Move) : Fleet × (Nat → ChaCha) :=
  let (w, gens) := p
  match t with
  | (i, .operate) =>
    let (w, g) := step i w (gens i)
    (w, fun j => if j = i then g else gens j)
  | (i, .flush) => (w.flushAll i, gens)

/-- The nodes' turns in the order of `turns`, each node drawing from a generator seeded with the
run's seed plus its number. -/
def runTurns (o : SoakOptions) (w : Fleet) (turns : List (Nat × Move)) : Fleet :=
  (turns.foldl turn (w, fun i => ChaCha.ofSeed (o.seed + i.toUInt64))).1

/-- Each of `nodes` nodes in turn makes its operations and then runs its queued writes. -/
def inTurn (operations nodes : Nat) : List (Nat × Move) :=
  (List.range nodes).flatMap fun i => List.replicate operations (i, .operate) ++ [(i, .flush)]

/-- Throw away every account left dirty on some node, answering how many there were. -/
def dropStranded (w : Fleet) : Outcome (Fleet × Nat) :=
  (List.range w.nodeCount).foldlM (fun (w, stranded) i =>
    w.accounts.toList.foldlM (fun (w, stranded) id =>
      match w.onCluster (Cluster.fetch Account.model i id) with
      | (_, .error f) => .error f
      | (w, .ok none) => .ok (w, stranded)
      | (w, .ok (some _)) =>
        if (w.cluster.node i).cache.isDirty id then
          let (w, _) := w.onCluster (Cluster.discardEntry (ω := Account) i id)
          .ok (w, stranded + 1)
        else .ok (w, stranded)) (w, stranded)) (w, 0)

/-- The report on node `i`. -/
def nodeReport (w : Fleet) (i : Nat) : NodeReport :=
  let r := w.cluster.node i
  let c := w.counters.getD i {}
  let stats := r.cache.stats
  let (flushed, coalesced) := match r.flusher with
    | some f => (f.stats.executed, f.stats.coalesced)
    | none => (0, 0)
  { node := r.node, deposits := c.deposits, persists := c.persists, conflicts := c.conflicts,
    failures := c.failures, quoteReads := c.quoteReads,
    changeEvents := (w.cluster.deliveries.filter (·.node == i)).length,
    cacheHitRatio := stats.hitRatio, cacheLoads := stats.loads, flushed, coalesced }

end Fleet

/-- One tag of the cap check: the state is the length of the current run of one node's tags,
that node, and whether some run already went over `maxRun`. -/
def capStep (maxRun : Nat) (st : Nat × Option String × Bool) (t : Tag) : Nat × Option String × Bool :=
  let (run, previous, exceeded) := st
  let run := if previous == some t.node then run + 1 else 1
  (run, some t.node, exceeded || run > maxRun)

/-- Whether some run of one node's tags in a lineage is longer than `maxRun`. -/
def exceedsCap (version : Lineage) (maxRun : Nat) : Bool :=
  (version.tags.foldl (capStep maxRun) (0, none, false)).2.2

/-- Start the nodes of a run, each watching the store with a listener. -/
def startNodes (s : Settings) (count : Nat) : Outcome (Cluster Account) :=
  let start : Cluster Account := ⟨Backend.empty, [], #[], [], [], [], 0, soakWallStart⟩
  (List.range (max count 1)).foldlM (fun c i => do
    let named := { s with node := { s.node with id := s.node.id ++ "-" ++ toString i } }
    let r ← Repository.build accountKind named .store (.start .hex) true false c.now
    let c := { c with nodes := c.nodes ++ [r] }
    let (res, c) := (Cluster.addListener (ω := Account) i "events").run.run c
    match res with
    | .ok _ => pure c
    | .error f => throw f) start

/-- Create an account with zero balance on the first node, answering its identity. -/
def createAccount : ClusterOp Account Identity := do
  let id ← Cluster.newId 0 "acct-"
  let n ← modifyGet fun c => let (c, n) := c.make ⟨id, 0⟩; (n, c)
  Cluster.update Account.model 0 n
  return id

/-- Create `count` accounts with zero balance on the first node, answering their identities. -/
def seedAccounts (c : Cluster Account) (count : Nat) : Outcome (Cluster Account × Array Identity) :=
  (List.range count).foldlM (fun (c, ids) _ => do
    let (res, c) := createAccount.run.run c
    match res with
    | .ok id => pure (c, ids.push id)
    | .error f => throw f) (c, #[])

/-- Run the workload to the end, the nodes taking the turns `turns`, and report. -/
def runWith (s : Settings) (o : SoakOptions) (turns : List (Nat × Move)) : Outcome SoakReport := do
  let cluster ← startNodes s o.nodes
  let (cluster, accounts) ← seedAccounts cluster o.accounts
  let quotes ← (List.range o.quotes).mapM fun n =>
    match Identity.make quoteKind ("q" ++ toString n) with
    | .ok id => pure id
    | .error e => throw (Fault.ofIdentity e)
  let source := quotes.foldl (fun src q => src.put q ⟨100.0, Lineage.parse "feed+1", none⟩)
    (Source.empty : Source Float)
  s.validate
  let options : ProxyOptions := {
    node := s.node.id
    maxRun := s.version.maxSameNodeRun
    policy := ExpiryPolicy.ofMillis s.proxy.expiryMs
    privateLoaders := s.proxy.loader == .dedicated }
  let registry := Registry.create options ⟨source, true, .empty, .none, soakWallStart⟩
  let w : Fleet := ⟨cluster, registry, accounts, quotes.toArray,
    Array.replicate cluster.nodes.length {}⟩
  let w := w.runTurns o turns
  let w := (List.range w.nodeCount).foldl
    (fun w i => (w.onCluster (Cluster.close Account.model i)).1) w
  let (w, stranded) ← w.dropStranded
  let (w, stored) := w.onCluster (Cluster.findIds (ω := Account) 0 { kind := accountKind, filter := .all })
  let stored ← stored
  let versions := stored.filterMap fun id => (w.cluster.backend.get? id).map Record.version
  let maxRun := s.version.maxSameNodeRun
  return {
    nodes := (List.range w.nodeCount).map w.nodeReport
    storedRecords := stored.length
    stranded
    backendWrites := w.cluster.backend.writes
    longestLineage := versions.foldl (fun m v => max m v.length) 0
    capViolations := (versions.filter (exceedsCap · maxRun)).length
    quoteLoads := w.registry.backing.source.loads }

/-- Run the workload to the end, each node making all its operations in turn, and report. -/
def run (s : Settings) (o : SoakOptions) : Outcome SoakReport :=
  runWith s o (Fleet.inTurn o.operations (max o.nodes 1))

end Stowage.Soak
