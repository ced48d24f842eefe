import Stowage.Identity
import Stowage.Fault
import Stowage.Version.Lineage
/-!
The identity cache: at most one live instance per identity.

Instances are named by their numbers; the application holds them, and the cache only records
which instance is live for an identity. Every entry carries the lineage of the revision it was
loaded from and a write state that tracks local changes not yet written back.

An entry whose instance nobody outside the cache holds is the first choice for eviction, and
an entry with local changes is never evicted. When an instance that is still held leaves the
cache it is told it was deleted: the operations that can do that answer the instances to tell,
and `remove` always answers the instance it took out.

Time is given by the caller in milliseconds; a logical clock orders entries by last use.
-/
namespace Stowage

open Stowage.Version

/-- Write state of a cached entry. -/
inductive WriteState where
  /-- Matches the stored revision. -/
  | clean
  /-- A write is in flight and nothing changed since it started. -/
  | updating
  /-- Has local changes waiting for a write. -/
  | dirty
  deriving DecidableEq, Repr, Inhabited

/-- The state's name. -/
def WriteState.name : WriteState → String
  | .clean => "clean"
  | .updating => "updating"
  | .dirty => "dirty"

/-- One cached entry. -/
structure CacheEntry where
  /-- The live instance. -/
  inst : Nat
  /-- Lineage of the cached revision. -/
  version : Lineage
  write : WriteState
  /-- The next lookup must reload. -/
  expired : Bool
  /-- Time of the last use, for idle eviction. -/
  lastAccess : Nat
  /-- Logical time of the last use, for least-recently-used order. -/
  lastTick : Nat
  /-- Number of the entry, distinct for every entry ever made. -/
  serial : Nat
  deriving Inhabited

/-- Counters of a cache. -/
structure CacheStats where
  hits : Nat := 0
  misses : Nat := 0
  /-- Loader calls. -/
  loads : Nat := 0
  evictions : Nat := 0
  /-- Dirty entries written back. -/
  writebacks : Nat := 0
  /-- Entries that are not clean now. -/
  dirtyCount : Nat := 0
  deriving Inhabited

/-- Share of lookups that were hits; zero before the first lookup. -/
def CacheStats.hitRatio (s : CacheStats) : Float :=
  if s.hits + s.misses = 0 then 0.0 else Float.ofNat s.hits / Float.ofNat (s.hits + s.misses)

/-- A cache of live instances by identity. -/
structure Cache where
  entries : List (Identity × CacheEntry)
  /-- At least one. -/
  capacity : Nat
  /-- Clean entries unused this long are swept. -/
  idleTimeout : Option Nat
  /-- The logical clock. -/
  ticks : Nat
  /-- Entries made so far. -/
  serials : Nat
  stats : CacheStats
  /-- The last instance evicted under each identity while it was held. -/
  evicted : List (Identity × Nat)
  deriving Inhabited

/-- How an offered reload was taken. -/
inductive Refresh where
  /-- Nothing cached under the identity. -/
  | absent
  /-- Local changes are pending; the reload was ignored. -/
  | skipped
  /-- The live instance absorbed the reloaded state. -/
  | accepted
  /-- The reloaded instance replaced the live one. -/
  | replaced
  deriving DecidableEq, Repr

/-- The outcome's name. -/
def Refresh.name : Refresh → String
  | .absent => "absent"
  | .skipped => "skipped"
  | .accepted => "accepted"
  | .replaced => "replaced"

/-- A write that has started: the entry, its instance and the lineage it is based on. -/
structure FlushTicket where
  serial : Nat
  inst : Nat
  previous : Lineage

namespace Cache

/-- An empty cache; a capacity of zero counts as one. -/
def empty (capacity : Nat) (idleTimeout : Option Nat) : Cache :=
  ⟨[], max capacity 1, idleTimeout, 0, 0, {}, []⟩

/-- The entry of an identity. -/
def entryOf (c : Cache) (id : Identity) : Option CacheEntry := c.entries.lookup id

/-- Number of entries. -/
def size (c : Cache) : Nat := c.entries.length

/-- Whether an identity is cached. -/
def contains (c : Cache) (id : Identity) : Bool := (c.entryOf id).isSome

/-- The cached instance, without touching or counting. -/
def peek (c : Cache) (id : Identity) : Option Nat := (c.entryOf id).map (·.inst)

/-- Lineage of the cached revision. -/
def version? (c : Cache) (id : Identity) : Option Lineage := (c.entryOf id).map (·.version)

/-- Write state of the cached entry. -/
def writeState? (c : Cache) (id : Identity) : Option WriteState := (c.entryOf id).map (·.write)

/-- Whether the entry has local changes not yet written back. -/
def isDirty (c : Cache) (id : Identity) : Bool := (c.writeState? id).any (· != .clean)

/-- Replace the entry of an identity. -/
def setEntry (c : Cache) (id : Identity) (e : CacheEntry) : Cache :=
  { c with entries := c.entries.map fun p => if p.1 == id then (id, e) else p }

/-- Take an identity's entry out. -/
def dropEntry (c : Cache) (id : Identity) : Cache :=
  { c with entries := c.entries.filter fun p => !(p.1 == id) }

/-- Change the counters. -/
def count (c : Cache) (f : CacheStats → CacheStats) : Cache := { c with stats := f c.stats }

/-- Advance the logical clock. -/
def tick (c : Cache) : Cache × Nat := ({ c with ticks := c.ticks + 1 }, c.ticks + 1)

/-- Mark an entry used at time `now`. -/
def touch (c : Cache) (e : CacheEntry) (now : Nat) : Cache × CacheEntry :=
  let (c, t) := c.tick
  (c, { e with lastAccess := now, lastTick := t })

/-- The instance for a read, touching the entry; an expired entry is not found. -/
def lookup (c : Cache) (id : Identity) (now : Nat) : Option (Cache × Nat) :=
  match c.entryOf id with
  | some e =>
    if e.expired then none
    else
      let (c, e) := c.touch e now
      some (c.setEntry id e, e.inst)
  | none => none

/-- A counted hit: the live instance of a read, when one is cached and not expired. -/
def hit? (c : Cache) (id : Identity) (now : Nat) : Option (Cache × Nat) :=
  (c.lookup id now).map fun (c, inst) => (c.count fun s => { s with hits := s.hits + 1 }, inst)

/-- Count a miss and the loader call that follows it. -/
def startLoad (c : Cache) : Cache :=
  c.count fun s => { s with misses := s.misses + 1, loads := s.loads + 1 }

/-- Take a removed entry's instance out: a dirty entry stops counting as dirty. -/
def detach (c : Cache) (e : CacheEntry) : Cache :=
  if e.write = .clean then c else c.count fun s => { s with dirtyCount := s.dirtyCount - 1 }

/-- Whether an instance is held by anyone but the entry of `id`: the application (`held`) or
another entry of this cache. -/
def referenced (c : Cache) (id : Identity) (inst : Nat) (held : Nat → Bool) : Bool :=
  held inst || c.entries.any fun p => !(p.1 == id) && p.2.inst == inst

/-- Count an eviction of an entry already out of the map; a referenced instance is recorded as
evicted and is to be told it was deleted. -/
def evict (c : Cache) (id : Identity) (e : CacheEntry) (held : Nat → Bool) : Cache × List Nat :=
  let shared := c.referenced id e.inst held
  let c := (c.count fun s => { s with evictions := s.evictions + 1 }).detach e
  if shared then
    ({ c with evicted := (id, e.inst) :: c.evicted.filter fun p => !(p.1 == id) }, [e.inst])
  else (c, [])

/-- The clean entry to evict first, other than `keep`: unreferenced before referenced, then
least recently used. -/
def victim? (c : Cache) (keep : Identity) (held : Nat → Bool) : Option (Identity × CacheEntry) :=
  c.entries.foldl (fun best p =>
    if p.1 == keep || p.2.write != .clean then best
    else match best with
      | none => some p
      | some b =>
        let rp := c.referenced p.1 p.2.inst held
        let rb := c.referenced b.1 b.2.inst held
        let better := (!rp && rb) || (rp == rb && p.2.lastTick < b.2.lastTick)
        if better then some p else some b) none

/-- Evict until the capacity holds or only dirty entries and `keep` are left. -/
def enforceCapacity (c : Cache) (keep : Identity) (held : Nat → Bool) : Cache × List Nat :=
  go c.entries.length c []
where
  go : Nat → Cache → List Nat → Cache × List Nat
    | 0, c, told => (c, told)
    | fuel + 1, c, told =>
      if c.size ≤ c.capacity then (c, told)
      else match c.victim? keep held with
        | none => (c, told)
        | some (vid, e) =>
          let (c, t) := (c.dropEntry vid).evict vid e held
          go fuel c (told ++ t)

/-- Add a new entry and make room for it. -/
def insert (c : Cache) (id : Identity) (inst : Nat) (version : Lineage) (write : WriteState)
    (now : Nat) (held : Nat → Bool) : Cache × List Nat :=
  let (c, t) := c.tick
  let e : CacheEntry := ⟨inst, version, write, false, now, t, c.serials⟩
  let c := { c with entries := c.entries ++ [(id, e)], serials := c.serials + 1 }
  c.enforceCapacity id held

/-- Install a loaded instance, reusing an expired entry in place. -/
def install (c : Cache) (id : Identity) (inst : Nat) (version : Lineage) (now : Nat)
    (held : Nat → Bool) : Cache × List Nat :=
  match c.entryOf id with
  | some e =>
    let (c, e) := c.touch { e with inst, version, expired := false } now
    (c.setEntry id e, [])
  | none => c.insert id inst version .clean now held

/-- A reload found the record gone: drop a clean expired entry. -/
def discardExpired (c : Cache) (id : Identity) (held : Nat → Bool) : Cache × List Nat :=
  match c.entryOf id with
  | some e => if e.expired && e.write == .clean then (c.dropEntry id).evict id e held else (c, [])
  | none => (c, [])

/-- Record a local change to a cached instance: the entry becomes dirty and the lineage it is
based on is answered. `none` when nothing is cached under the identity; a different cached
instance is refused. -/
def markExisting (c : Cache) (id : Identity) (inst : Nat) (now : Nat) :
    Option (Outcome (Cache × Lineage)) :=
  match c.entryOf id with
  | none => none
  | some e =>
    if e.inst != inst then
      some (.error (.invariant ("a different instance of " ++ id.render ++ " is already cached")))
    else
      let c := if e.write = .clean then c.count fun s => { s with dirtyCount := s.dirtyCount + 1 }
        else c
      let (c, e) := c.touch { e with write := .dirty, expired := false } now
      some (.ok (c.setEntry id e, e.version))

/-- Whether `inst` is the instance last evicted under the identity while held. -/
def wasEvicted (c : Cache) (id : Identity) (inst : Nat) : Bool :=
  (c.evicted.lookup id).any (· == inst)

/-- The refusal to provision an instance that was evicted while held. -/
def evictedFault (id : Identity) : Fault :=
  .invariant ("instance of " ++ id.render ++ " was evicted and marked deleted, get it again")

/-- Start writing a dirty entry back; `none` when it is not cached or not dirty. -/
def beginFlush (c : Cache) (id : Identity) : Option (Cache × FlushTicket) :=
  match c.entryOf id with
  | some e =>
    if e.write = .dirty then
      some (c.setEntry id { e with write := .updating }, ⟨e.serial, e.inst, e.version⟩)
    else none
  | none => none

/-- Finish a write with the writer's result. An entry that left the cache meanwhile only
passes the result on; a stored lineage becomes the entry's, and the entry is clean unless it
was marked again during the write; a failed write leaves it dirty. -/
def finishFlush (c : Cache) (id : Identity) (t : FlushTicket) (result : Outcome Lineage) :
    Cache × Outcome Bool :=
  match c.entryOf id with
  | some e =>
    if e.serial != t.serial then (c, result.map fun _ => true)
    else match result with
      | .ok v =>
        let c := if e.write = .updating then
            c.count fun s => { s with dirtyCount := s.dirtyCount - 1 }
          else c
        let w := if e.write = .updating then WriteState.clean else e.write
        let c := c.count fun s => { s with writebacks := s.writebacks + 1 }
        (c.setEntry id { e with version := v, write := w }, .ok true)
      | .error f => (c.setEntry id { e with write := .dirty }, .error f)
  | none => (c, result.map fun _ => true)

/-- Take an entry out with its local changes; the instance is answered. -/
def detachEntry (c : Cache) (id : Identity) : Cache × Option Nat :=
  match c.entryOf id with
  | some e => ((c.dropEntry id).detach e, some e.inst)
  | none => (c, none)

/-- Force the next read to reload; refused while local changes are pending. -/
def expire (c : Cache) (id : Identity) : Cache × Bool :=
  match c.entryOf id with
  | some e => if e.write = .clean then (c.setEntry id { e with expired := true }, true) else (c, false)
  | none => (c, false)

/-- The live instance a reload can be offered to, or why it cannot. -/
def offer (c : Cache) (id : Identity) : Except Refresh Nat :=
  match c.entryOf id with
  | some e => if e.write = .clean then .ok e.inst else .error .skipped
  | none => .error .absent

/-- Take an offered reload: its lineage, and its instance unless the live one absorbed it. -/
def refresh (c : Cache) (id : Identity) (version : Lineage) (replacement : Option Nat) : Cache :=
  match c.entryOf id with
  | some e => c.setEntry id { e with expired := false, version, inst := replacement.getD e.inst }
  | none => c

/-- Evict clean entries idle for the timeout or longer; answers the number evicted and the
held instances to tell. -/
def sweep (c : Cache) (now : Nat) (held : Nat → Bool) : Cache × Nat × List Nat :=
  match c.idleTimeout with
  | none => (c, 0, [])
  | some timeout =>
    let idle := c.entries.filter fun p => now - p.2.lastAccess ≥ timeout && p.2.write == .clean
    idle.foldl (fun (acc : Cache × Nat × List Nat) p =>
      let (c, t) := (acc.1.dropEntry p.1).evict p.1 p.2 held
      (c, acc.2.1 + 1, acc.2.2 ++ t)) (c, 0, [])

end Cache

end Stowage
