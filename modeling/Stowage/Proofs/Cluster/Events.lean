import Mathlib
import Stowage.Proofs.Cluster.Conflicts
import Stowage.Proofs.Cluster.Frame
/-!
Change events: what one stored change tells the listeners of a cluster.

The store delivers a change it took to every node subscribed to the record's kind, in the order
they subscribed, while the writing call is still running. A subscriber fans the change out to its
listeners once, unless it is the writer, whose store call in progress makes it ignore the change,
or it caches the identity and the stored record is one it reads but either cannot decode or
already holds: its cached lineage compares the same as the stored one. The writer fans the change
out itself once its call is over. A call that stores nothing delivers nothing, and after every
store call the writer counts as many calls of its own in progress as before.

The lineage comparison is what decides "already holds", so a node stays silent about a new
revision whose lineage compares the same as the one it caches, such as one written on top of a
saturated magnitude by the node that wrote the cached one.
-/
open Std.Do

set_option mvcgen.warning false

namespace Stowage

open Stowage.Version

variable {ω : Type}

/-- A delivery as its listener heard it: the node, the listener, the change and the identity,
leaving out the object it was shown. -/
def Delivery.event (d : Delivery ω) : Nat × String × ChangeKind × Identity :=
  (d.node, d.listener, d.change, d.id)

namespace Backend

section Watchers

variable (b : Backend) (id : Identity) (r : Record)

@[simp] theorem watchers_save (previous : Lineage) :
    (b.save id r previous).1.watchers = b.watchers := by
  by_cases hf : b.failures = 0
  · simp only [save, check_of_ready hf]
    split <;> rfl
  · simp [save, check_of_failing hf]

@[simp] theorem watchers_createNew : (b.createNew id r).1.watchers = b.watchers := by
  by_cases hf : b.failures = 0
  · cases hg : b.get? id <;> simp [createNew, check_of_ready hf, hg]
  · simp [createNew, check_of_failing hf]

@[simp] theorem watchers_delete : (b.delete id).1.watchers = b.watchers := by
  by_cases hf : b.failures = 0
  · cases hg : b.get? id <;> simp [delete, check_of_ready hf, hg]
  · simp [delete, check_of_failing hf]

theorem failures_delete {gone : Bool} (h : (b.delete id).2 = .ok gone) :
    (b.delete id).1.failures = 0 := by
  by_cases hf : b.failures = 0
  · cases hg : b.get? id <;> simp [delete, check_of_ready hf, hg, hf]
  · simp [delete, check_of_failing hf] at h

theorem subscribers_congr {b' : Backend} (h : b'.watchers = b.watchers) :
    (b'.changed id).2 = (b.changed id).2 := by
  simp [changed, h]

theorem subscribers_nodup (h : b.watchers.Nodup) : (b.changed id).2.Nodup := by
  refine (h.filter _).map_on fun x hx y hy hxy => ?_
  have hx' := (List.mem_filter.mp hx).2
  have hy' := (List.mem_filter.mp hy).2
  simp only [beq_iff_eq] at hx' hy'
  exact Prod.ext (hx'.trans hy'.symm) hxy

end Watchers

end Backend

namespace Repository

variable (m : ObjectModel ω) (r : Repository) (id : Identity)

/-- How many store calls of the node on `x` are in progress. -/
def ownCount (x : Identity) : Nat := (r.ownWrites.lookup x).getD 0

/-- The events one fan-out of node `j` delivers: one for each listener, in order. -/
def fanned (j : Nat) (kind : ChangeKind) : List (Nat × String × ChangeKind × Identity) :=
  r.listeners.snapshot.map fun l => (j, l, kind, id)

/-- A stored record the node reads on a reload: live, and visible to it. -/
def readable (rec : Record) : Bool := !rec.version.isDeleted && r.visible rec.owner?

/-- The node decodes a stored record to an object of its identity. -/
def decodes (rec : Record) : Bool :=
  match m.decode r.absorbs id rec with
  | .ok o => m.identity o == id
  | .error _ => false

/-- The node's cached lineage compares the same as a stored record's. -/
def holds (rec : Record) : Bool :=
  ((r.cache.version? id).getD Lineage.empty).compare rec.version == .same

/-- The node keeps a new or updated record of a cached identity to itself: it reads the stored
record, but its reload fails to decode it, or finds the revision it already holds. -/
def skips (kind : ChangeKind) (stored : Option Record) : Bool :=
  (kind == .new || kind == .update) && r.cache.contains id &&
    stored.any fun rec => r.readable rec && (!r.decodes m id rec || r.holds id rec)

/-- The node fans a change of `id` out to its listeners: the identity is of its kind, no store
call of its own on it is in progress, and it does not keep the change to itself. -/
def hears (kind : ChangeKind) (stored : Option Record) : Bool :=
  id.kind == r.kind && !r.isOwnWrite id && !r.skips m id kind stored

section Hears

variable {m : ObjectModel ω} {r : Repository} {id : Identity} {kind : ChangeKind}
  {stored : Option Record}

theorem hears_of_ignores (h : (id.kind != r.kind || r.isOwnWrite id) = true) :
    r.hears m id kind stored = false := by
  simp only [Bool.or_eq_true, bne_iff_ne, ne_eq] at h
  rcases h with h | h <;> simp [hears, h]

theorem hears_of_heeds (h : ¬(id.kind != r.kind || r.isOwnWrite id) = true) :
    r.hears m id kind stored = !r.skips m id kind stored := by
  simp only [Bool.or_eq_true, bne_iff_ne, ne_eq, not_or, Decidable.not_not, Bool.not_eq_true] at h
  simp [hears, h.1, h.2]

theorem skips_of_uncached (h : r.cache.contains id = false) : r.skips m id kind stored = false := by
  simp [skips, h]

theorem skips_of_unreadable (h : ∀ rec, stored = some rec → r.readable rec = false) :
    r.skips m id kind stored = false := by
  cases stored with
  | none => simp [skips]
  | some rec => simp [skips, h rec rfl]

@[simp] theorem skips_delete : r.skips m id .delete stored = false := by
  simp [skips]

@[simp] theorem skips_unknown : r.skips m id .unknown stored = false := by
  simp [skips]

theorem skips_of_decodes (hk : kind = .new ∨ kind = .update) (hc : r.cache.contains id = true)
    {rec : Record} (hrec : stored = some rec) (hread : r.readable rec = true)
    (hdec : r.decodes m id rec = true) : r.skips m id kind stored = r.holds id rec := by
  subst hrec
  rcases hk with rfl | rfl <;> simp [skips, hc, hread, hdec]

theorem skips_of_undecoded (hk : kind = .new ∨ kind = .update) (hc : r.cache.contains id = true)
    {rec : Record} (hrec : stored = some rec) (hread : r.readable rec = true)
    (hdec : r.decodes m id rec = false) : r.skips m id kind stored = true := by
  subst hrec
  rcases hk with rfl | rfl <;> simp [skips, hc, hread, hdec]

theorem hears_of_reload (hheed : ¬(id.kind != r.kind || r.isOwnWrite id) = true)
    (hk : kind = .new ∨ kind = .update) (hc : r.cache.contains id = true) {rec : Record}
    (hrec : stored = some rec) (hread : r.readable rec = true) (hdec : r.decodes m id rec = true) :
    r.hears m id kind stored = !r.holds id rec := by
  rw [hears_of_heeds hheed, skips_of_decodes hk hc hrec hread hdec]

end Hears

section Own

variable (r : Repository) (id : Identity)

@[simp] theorem listeners_ownWriteStep (starting : Bool) :
    (r.ownWriteStep id starting).listeners = r.listeners := by
  unfold ownWriteStep; dsimp only; split_ifs <;> rfl

theorem ownCount_ownWriteStep (starting : Bool) (x : Identity) :
    (r.ownWriteStep id starting).ownCount x =
      if x = id then (if starting then r.ownCount id + 1 else r.ownCount id - 1)
      else r.ownCount x := by
  have hnone : (r.ownWrites.filter fun p => !(p.1 == id)).lookup id = none := by
    refine List.lookup_eq_none_iff.mpr fun p hp => ?_
    rw [bne_comm]
    exact (List.mem_filter.mp hp).2
  by_cases hx : x = id
  · subst hx
    cases starting
    · -- the last call ending takes the identity out
      by_cases hn : (r.ownWrites.lookup x).getD 0 ≤ 1
      · simp [ownWriteStep, ownCount, hn, hnone]
      · simp [ownWriteStep, ownCount, hn]
    · simp [ownWriteStep, ownCount]
  · cases starting
    · by_cases hn : (r.ownWrites.lookup id).getD 0 ≤ 1
      · simp [ownWriteStep, ownCount, hn, hx, Backend.lookup_filter_ne id _ hx]
      · simp [ownWriteStep, ownCount, hn, hx, lookup_cons_ite, Backend.lookup_filter_ne id _ hx]
    · simp [ownWriteStep, ownCount, hx, lookup_cons_ite, Backend.lookup_filter_ne id _ hx]

theorem ownCount_round (x : Identity) :
    ((r.ownWriteStep id true).ownWriteStep id false).ownCount x = r.ownCount x := by
  simp only [ownCount_ownWriteStep]
  by_cases hx : x = id <;> simp [hx]

end Own

end Repository

namespace Cluster

variable (m : ObjectModel ω)

/-- The events delivered so far, oldest last. -/
def events (c : Cluster ω) : List (Nat × String × ChangeKind × Identity) :=
  c.deliveries.map Delivery.event

/-- The events a change of `id` that node `i` stored sets off among the subscribers, in the
order they subscribed, with `stored` what the store holds after it: every subscriber but the
writer that hears the change fans it out once. -/
def heard (c : Cluster ω) (i : Nat) (kind : ChangeKind) (id : Identity) (stored : Option Record) :
    List (Nat × String × ChangeKind × Identity) :=
  (c.backend.changed id).2.flatMap fun j =>
    if j != i && (c.node j).hears m id kind stored then (c.node j).fanned id j kind else []

/-- The events the nodes `js` that hear a change of `id` fan out, in order, with `stored` what
the store holds after it. -/
def told (c : Cluster ω) (kind : ChangeKind) (id : Identity) (stored : Option Record)
    (js : List Nat) : List (Nat × String × ChangeKind × Identity) :=
  js.flatMap fun j => if (c.node j).hears m id kind stored then (c.node j).fanned id j kind else []

section Events

variable (c : Cluster ω)

@[simp] theorem events_modifyNode (i : Nat) (f : Repository → Repository) :
    (c.modifyNode i f).events = c.events := rfl

@[simp] theorem events_modifyObj (n : Nat) (g : ω → ω) : (c.modifyObj n g).events = c.events := rfl

@[simp] theorem events_make (o : ω) : (c.make o).1.events = c.events := rfl

@[simp] theorem events_tell (insts : List Nat) (g : ω → ω) :
    (insts.foldl (fun c n => c.modifyObj n g) c).events = c.events := by
  induction insts generalizing c with
  | nil => rfl
  | cons n rest ih => exact ih _

theorem events_deliver (j : Nat) (kind : ChangeKind) (id : Identity) (v : Option (Nat × ω)) :
    ({ c with deliveries := ((c.node j).listeners.snapshot.map fun l =>
        (⟨j, l, kind, id, v⟩ : Delivery ω)).reverse ++ c.deliveries } : Cluster ω).events =
      ((c.node j).fanned id j kind).reverse ++ c.events := by
  simp [events, Repository.fanned, List.map_reverse, Delivery.event]

end Events

theorem load_reads (j : Nat) (id : Identity) (c : Cluster ω) (hready : c.backend.failures = 0) :
    ⦃fun s => ⌜s = c⌝⦄ load m j id
    ⦃post⟨fun p s => ⌜s.backend = c.backend ∧ s.nodes = c.nodes ∧ s.events = c.events ∧
        (p = none → ∀ rec, c.backend.get? id = some rec → (c.node j).readable rec = false) ∧
        (∀ k v, p = some (k, v) → ∃ rec, c.backend.get? id = some rec ∧
          (c.node j).readable rec = true ∧ (c.node j).decodes m id rec = true ∧ rec.version = v)⌝,
      fun _ s => ⌜s.backend = c.backend ∧ s.nodes = c.nodes ∧ s.events = c.events ∧
        ∃ rec, c.backend.get? id = some rec ∧ (c.node j).readable rec = true ∧
          (c.node j).decodes m id rec = false⌝⟩⦄ := by
  intro s hs
  simp only [SPred.down_pure] at hs
  subst hs
  have hload : s.backend.load id = (s.backend, .ok ((s.backend.get? id).map Loaded.ofStamped)) :=
    Backend.load_of_ready _ _ hready
  have hnode : ∀ b : Backend, ({ s with backend := b } : Cluster ω).node j = s.node j := fun _ => rfl
  mvcgen [load, onBackend, lift, hload]
  case vc1 hnone =>
    -- nothing is stored
    refine ⟨by rw [hload], trivial, rfl, fun rec hrec => ?_, fun _ _ h => by cases h⟩
    simp [hrec] at hnone
  case vc2 l hl r hcut =>
    -- a deleted or hidden record reads as nothing
    obtain ⟨rec, hrec, rfl⟩ := Option.map_eq_some_iff.mp hl
    refine ⟨by rw [hload], trivial, rfl, fun rec' hrec' => ?_, fun _ _ h => by cases h⟩
    rw [hrec] at hrec'
    cases hrec'
    revert hcut
    simp +zetaDelta only [Repository.readable, Loaded.ofStamped, hnode]
    cases rec.version.isDeleted <;> simp
  case vc3 l hl r hcut o hdec t jp hid =>
    -- the record decodes to an object of another identity
    obtain ⟨rec, hrec, rfl⟩ := Option.map_eq_some_iff.mp hl
    refine ⟨by simp +zetaDelta [hload], rfl, rfl, rec, hrec, ?_, ?_⟩
    · simpa +zetaDelta [Repository.readable, Loaded.ofStamped, hnode] using hcut
    · simp +zetaDelta only [hnode, Loaded.ofStamped] at hdec
      simpa [Repository.decodes, hdec] using hid
  case vc4 l hl r hcut o hdec t jp hid t₂ =>
    -- the record loads
    obtain ⟨rec, hrec, rfl⟩ := Option.map_eq_some_iff.mp hl
    refine ⟨by simp +zetaDelta [hload], rfl, rfl, fun h => by simp at h,
      fun k v hkv => ⟨rec, hrec, ?_, ?_, ?_⟩⟩
    · simpa +zetaDelta [Repository.readable, Loaded.ofStamped, hnode] using hcut
    · simp +zetaDelta only [hnode, Loaded.ofStamped] at hdec hid
      simpa [Repository.decodes, hdec] using hid
    · simp only [Option.some.injEq, Prod.mk.injEq] at hkv
      exact hkv.2
  case vc5 l hl r hcut f hdec =>
    -- the record does not decode
    obtain ⟨rec, hrec, rfl⟩ := Option.map_eq_some_iff.mp hl
    refine ⟨by rw [hload], trivial, rfl, rec, hrec, ?_, ?_⟩
    · simpa +zetaDelta [Repository.readable, Loaded.ofStamped, hnode] using hcut
    · simp +zetaDelta only [hnode, Loaded.ofStamped] at hdec
      simp [Repository.decodes, hdec]

theorem node_eq_of_nodes {c s : Cluster ω} (h : s.nodes = c.nodes) (j : Nat) :
    s.node j = c.node j := by
  unfold node
  rw [h]

/-- Cluster `s` differs from `c` at most in node `j`'s cache and flusher and in the objects. -/
structure Touched (j : Nat) (c s : Cluster ω) : Prop where
  backend : s.backend = c.backend
  length : s.nodes.length = c.nodes.length
  others : ∀ k, k ≠ j → s.node k = c.node k
  listeners : (s.node j).listeners = (c.node j).listeners
  ownWrites : (s.node j).ownWrites = (c.node j).ownWrites
  events : s.events = c.events

section Touched

variable {j : Nat} {c s : Cluster ω}

theorem Touched.of_nodes (hb : s.backend = c.backend) (hn : s.nodes = c.nodes)
    (he : s.events = c.events) : Touched j c s :=
  ⟨hb, by rw [hn], fun k _ => node_eq_of_nodes hn k, by rw [node_eq_of_nodes hn],
    by rw [node_eq_of_nodes hn], he⟩

theorem Touched.node (h : Touched j c s) (f : Repository → Repository)
    (hl : ∀ r, (f r).listeners = r.listeners) (ho : ∀ r, (f r).ownWrites = r.ownWrites) :
    Touched j c (s.modifyNode j f) := by
  refine ⟨h.backend, (length_modifyNode s j f).trans h.length,
    fun k hk => (node_modifyNode_ne s j f hk).trans (h.others k hk), ?_, ?_, h.events⟩
  · rw [node_modifyNode]
    split
    · rw [hl]
      exact h.listeners
    · exact h.listeners
  · rw [node_modifyNode]
    split
    · rw [ho]
      exact h.ownWrites
    · exact h.ownWrites

theorem Touched.cache (h : Touched j c s) (f : Repository → Cache) :
    Touched j c (s.modifyNode j fun r => { r with cache := f r }) :=
  h.node _ (fun _ => rfl) (fun _ => rfl)

theorem Touched.modifyObj (h : Touched j c s) (n : Nat) (g : ω → ω) :
    Touched j c (s.modifyObj n g) :=
  ⟨h.backend, h.length, h.others, h.listeners, h.ownWrites, h.events⟩

theorem Touched.tell (h : Touched j c s) (insts : List Nat) (g : ω → ω) :
    Touched j c (insts.foldl (fun c n => c.modifyObj n g) s) := by
  refine ⟨(backend_tell s insts g).trans h.backend, by rw [nodes_tell]; exact h.length,
    fun k hk => ?_, ?_, ?_, ?_⟩
  · rw [node_tell]
    exact h.others k hk
  · rw [node_tell]
    exact h.listeners
  · rw [node_tell]
    exact h.ownWrites
  · rw [events_tell]
    exact h.events

end Touched

/-- The end `s` of node `j`'s reaction to a change of `id` from cluster `c`: the store and the
other nodes are as they were, and so is node `j` when it does not hear the change; its fan-out is
delivered when it does. -/
structure Reacted (j : Nat) (kind : ChangeKind) (id : Identity) (c s : Cluster ω) : Prop where
  backend : s.backend = c.backend
  length : s.nodes.length = c.nodes.length
  others : ∀ k, k ≠ j → s.node k = c.node k
  quiet : (c.node j).hears m id kind (c.backend.get? id) = false → s.node j = c.node j
  events : s.events = (if (c.node j).hears m id kind (c.backend.get? id) then
    (c.node j).fanned id j kind else []).reverse ++ c.events

section Reacted

variable {j : Nat} {kind : ChangeKind} {id : Identity} {c s : Cluster ω}

theorem Reacted.silent (hb : s.backend = c.backend) (hn : s.nodes = c.nodes)
    (he : s.events = c.events) (hh : (c.node j).hears m id kind (c.backend.get? id) = false) :
    Reacted m j kind id c s :=
  ⟨hb, by rw [hn], fun k _ => node_eq_of_nodes hn k, fun _ => node_eq_of_nodes hn j,
    by simpa [hh] using he⟩

theorem Reacted.deliver (h : Touched j c s)
    (hh : (c.node j).hears m id kind (c.backend.get? id) = true) (v : Option (Nat × ω)) :
    Reacted m j kind id c { s with deliveries := ((s.node j).listeners.snapshot.map fun l =>
      (⟨j, l, kind, id, v⟩ : Delivery ω)).reverse ++ s.deliveries } where
  backend := h.backend
  length := h.length
  others := h.others
  quiet hq := by simp [hh] at hq
  events := by
    rw [events_deliver, h.events, hh, if_pos rfl]
    unfold Repository.fanned
    rw [h.listeners]

end Reacted

/-- Part of a delivery from cluster `c`: the nodes `done` have reacted to a change of `id`, and
only those that heard it changed, each having fanned it out once, in order. -/
structure Told (c : Cluster ω) (kind : ChangeKind) (id : Identity) (done : List Nat)
    (s : Cluster ω) : Prop where
  backend : s.backend = c.backend
  length : s.nodes.length = c.nodes.length
  nodes : ∀ k, (k ∉ done ∨ (c.node k).hears m id kind (c.backend.get? id) = false) →
    s.node k = c.node k
  events : s.events = (c.told m kind id (c.backend.get? id) done).reverse ++ c.events

theorem Told.step {c s s' : Cluster ω} {kind : ChangeKind} {id : Identity} {done : List Nat}
    {j : Nat} (h : Told m c kind id done s) (hj : j ∉ done) (hr : Reacted m j kind id s s') :
    Told m c kind id (done ++ [j]) s' := by
  have hsj : s.node j = c.node j := h.nodes j (.inl hj)
  have hhears : (s.node j).hears m id kind (s.backend.get? id) =
      (c.node j).hears m id kind (c.backend.get? id) := by
    rw [hsj, h.backend]
  refine ⟨hr.backend.trans h.backend, hr.length.trans h.length, fun k hk => ?_, ?_⟩
  · by_cases hkj : k = j
    · -- the node that just reacted changed only if it heard the change
      subst hkj
      have hq : (c.node k).hears m id kind (c.backend.get? id) = false := by simpa using hk
      rw [hr.quiet (hhears.trans hq), hsj]
    · rw [hr.others k hkj]
      exact h.nodes k (by simpa [hkj] using hk)
  · rw [hr.events, h.events, hhears, hsj]
    simp [told]

/-- How a store call from cluster `c` ended in `s`: a call that stored a change of `id` counted
one write, and the subscribers that hear the change fanned it out once each, in the order they
subscribed; a call that stored nothing counted and delivered nothing. The nodes that do not hear
the change are as they were. -/
structure Stored (c : Cluster ω) (kind : ChangeKind) (id : Identity) (changed : Bool)
    (s : Cluster ω) : Prop where
  writes : s.backend.writes = c.backend.writes + if changed then 1 else 0
  length : s.nodes.length = c.nodes.length
  events : s.events = (if changed then c.told m kind id (s.backend.get? id) (c.backend.changed id).2
    else []).reverse ++ c.events
  quiet : ∀ k, (c.node k).hears m id kind (s.backend.get? id) = false → s.node k = c.node k

section Stored

variable {c s : Cluster ω} {kind : ChangeKind} {id : Identity}

theorem Stored.unchanged (hw : s.backend.writes = c.backend.writes) (hn : s.nodes = c.nodes)
    (he : s.events = c.events) : Stored m c kind id false s :=
  ⟨by simpa using hw, by rw [hn], by simpa using he, fun k _ => node_eq_of_nodes hn k⟩

theorem Stored.of_told {b : Backend} (hw : b.writes = c.backend.writes)
    (hwatch : b.watchers = c.backend.watchers)
    (h : Told m { c with backend := (b.changed id).1 } kind id (b.changed id).2 s) :
    Stored m c kind id true s := by
  have hget : s.backend.get? id = (b.changed id).1.get? id := by rw [h.backend]
  refine ⟨?_, h.length, ?_, fun k hk => h.nodes k (.inr (by rwa [← hget]))⟩
  · rw [h.backend, Backend.writes_changed, hw, if_pos rfl]
  · rw [h.events, hget, Backend.subscribers_congr _ id hwatch, if_pos rfl]
    rfl

end Stored

theorem told_ownWriteStep (c : Cluster ω) {i : Nat} (hi : i < c.nodes.length) (kind : ChangeKind)
    (id : Identity) (stored : Option Record) :
    (c.modifyNode i fun r => r.ownWriteStep id true).told m kind id stored (c.backend.changed id).2 =
      c.heard m i kind id stored := by
  unfold told heard
  congr 1
  funext j
  by_cases hj : j = i
  · subst hj
    have hown : ((c.modifyNode j fun r => r.ownWriteStep id true).node j).hears m id kind stored =
        false := by
      rw [node_modifyNode_self _ _ _ hi]
      exact Repository.hears_of_ignores (by simp [Repository.isOwnWrite_ownWriteStep])
    simp [hown]
  · rw [node_modifyNode_ne _ _ _ hj]
    simp [hj]

/-- How a store call of node `i` from cluster `c` ended in `s`: a call that stored a change of
`id` counted one write, and every subscriber but the writer that hears the change fanned it out
once, in the order they subscribed; a call that stored nothing counted and delivered nothing.
Either way the writer's listeners and its counts of calls in progress are as they were. -/
structure Relayed (c : Cluster ω) (i : Nat) (kind : ChangeKind) (id : Identity) (changed : Bool)
    (s : Cluster ω) : Prop where
  writes : s.backend.writes = c.backend.writes + if changed then 1 else 0
  events : s.events = (if changed then c.heard m i kind id (s.backend.get? id) else []).reverse ++
    c.events
  listeners : (s.node i).listeners = (c.node i).listeners
  owns : ∀ x, (s.node i).ownCount x = (c.node i).ownCount x

theorem heard_congr {c c' : Cluster ω} {i : Nat} (hb : c'.backend = c.backend)
    (hn : ∀ k, k ≠ i → c'.node k = c.node k) (kind : ChangeKind) (id : Identity)
    (stored : Option Record) : c'.heard m i kind id stored = c.heard m i kind id stored := by
  unfold heard
  rw [hb]
  congr 1
  funext j
  by_cases hj : j = i
  · simp [hj]
  · rw [hn j hj]

/-- How an operation of node `i` from cluster `c` that may store a change of `id` ended in `s`:
one that stored a change counted one write, every subscriber but the writer that hears the change
fanned it out once, in the order they subscribed, and the writer fanned it out after them; one
that stored nothing counted and delivered nothing. Either way the writer's counts of its calls in
progress are as they were. -/
structure Announced (c : Cluster ω) (i : Nat) (kind : ChangeKind) (id : Identity)
    (changed : Bool) (s : Cluster ω) : Prop where
  writes : s.backend.writes = c.backend.writes + if changed then 1 else 0
  events : s.events = (if changed then c.heard m i kind id (s.backend.get? id) ++
    (c.node i).fanned id i kind else []).reverse ++ c.events
  owns : ∀ x, (s.node i).ownCount x = (c.node i).ownCount x

theorem Stored.relayed {c s : Cluster ω} {i : Nat} (hi : i < c.nodes.length) {kind : ChangeKind}
    {id : Identity} {changed : Bool}
    (h : Stored m (c.modifyNode i fun r => r.ownWriteStep id true) kind id changed s) :
    Relayed m c i kind id changed (s.modifyNode i fun r => r.ownWriteStep id false) := by
  have hown : ((c.modifyNode i fun r => r.ownWriteStep id true).node i).hears m id kind
      (s.backend.get? id) = false := by
    rw [node_modifyNode_self _ _ _ hi]
    exact Repository.hears_of_ignores (by simp [Repository.isOwnWrite_ownWriteStep])
  have hlen : i < s.nodes.length := by rw [h.length, length_modifyNode]; exact hi
  have hnode : (s.modifyNode i fun r => r.ownWriteStep id false).node i =
      ((c.node i).ownWriteStep id true).ownWriteStep id false := by
    rw [node_modifyNode_self _ _ _ hlen, h.quiet i hown, node_modifyNode_self _ _ _ hi]
  refine ⟨h.writes, ?_, ?_, fun x => ?_⟩
  · rw [events_modifyNode, h.events, backend_modifyNode, told_ownWriteStep m c hi]
    rfl
  · rw [hnode]
    simp
  · rw [hnode]
    exact Repository.ownCount_round _ id x

section Relayed

variable {c c' s s' : Cluster ω} {i : Nat} {kind : ChangeKind} {id : Identity} {changed : Bool}

theorem Relayed.of_touched (ht : Touched i c c') (h : Relayed m c' i kind id changed s) :
    Relayed m c i kind id changed s := by
  refine ⟨by rw [h.writes, ht.backend], ?_, h.listeners.trans ht.listeners, fun x => ?_⟩
  · rw [h.events, heard_congr m ht.backend ht.others, ht.events]
  · rw [h.owns x]
    unfold Repository.ownCount
    rw [ht.ownWrites]

theorem Relayed.touched (h : Relayed m c i kind id changed s) (ht : Touched i s s') :
    Relayed m c i kind id changed s' := by
  refine ⟨by rw [ht.backend, h.writes], by rw [ht.events, h.events, ht.backend],
    ht.listeners.trans h.listeners, fun x => ?_⟩
  rw [← h.owns x]
  unfold Repository.ownCount
  rw [ht.ownWrites]

theorem Relayed.announced (h : Relayed m c i kind id true s) (ht : Touched i s s')
    (v : Option (Nat × ω)) :
    Announced m c i kind id true { s' with deliveries := ((s'.node i).listeners.snapshot.map
      fun l => (⟨i, l, kind, id, v⟩ : Delivery ω)).reverse ++ s'.deliveries } := by
  refine ⟨by rw [← h.writes, ht.backend], ?_, fun x => ?_⟩
  · rw [events_deliver, ht.events, h.events, ht.backend, if_pos rfl, if_pos rfl,
      List.reverse_append, List.append_assoc]
    unfold Repository.fanned
    rw [ht.listeners, h.listeners]
  · rw [← h.owns x]
    unfold Repository.ownCount
    rw [← ht.ownWrites]
    rfl

theorem Touched.relayed_rfl (ht : Touched i c s) : Relayed m c i kind id false s := by
  refine ⟨by rw [ht.backend]; rfl, by rw [ht.events]; rfl, ht.listeners, fun x => ?_⟩
  unfold Repository.ownCount
  rw [ht.ownWrites]

theorem Relayed.unannounced (h : Relayed m c i kind id false s) (ht : Touched i s s') :
    Announced m c i kind id false s' := by
  refine ⟨by rw [← h.writes, ht.backend], ?_, fun x => ?_⟩
  · rw [ht.events, h.events]
    rfl
  · rw [← h.owns x]
    unfold Repository.ownCount
    rw [ht.ownWrites]

end Relayed

section Ops

variable [Inhabited ω]

/-- **A subscriber's reaction to a change.** Node `j` reloads the identity when it caches it and
fans the change out when it hears it; it changes nothing else of the cluster. -/
theorem onExternal_reacted (j : Nat) (kind : ChangeKind) (id : Identity) (c : Cluster ω)
    (hready : c.backend.failures = 0) :
    ⦃fun s => ⌜s = c⌝⦄ onExternal m j kind id
    ⦃post⟨fun _ s => ⌜Reacted m j kind id c s⌝, fun _ s => ⌜Reacted m j kind id c s⌝⟩⦄ := by
  intro s hs
  simp only [SPred.down_pure] at hs
  subst hs
  have hload := load_reads m j id s hready
  mvcgen [onExternal, hload, fanOut, peek, detach, tell, onNode]
  case vc1 r hignore => exact Reacted.silent m rfl rfl rfl (Repository.hears_of_ignores hignore)
  case vc2 r hheed hk jp hc p peer version hp s' hpost cached hsame
    | vc9 r hheed hk jp hc p peer version hp s' hpost cached hsame =>
    -- the node already holds the stored revision
    obtain ⟨hb, hn, he, -, hsome⟩ := hpost
    obtain ⟨rec, hrec, hread, hdec, rfl⟩ := hsome peer _ rfl
    refine Reacted.silent m hb hn he ?_
    rw [Repository.hears_of_reload hheed (by simp) hc hrec hread hdec]
    simpa +zetaDelta [Repository.holds, node_eq_of_nodes hn] using hsame
  case vc3 r hheed hk jp hc p peer version hp s' hpost cached hsame f hoffer t
    | vc10 r hheed hk jp hc p peer version hp s' hpost cached hsame f hoffer t =>
    -- a reload that cannot be offered leaves the entry as it is
    obtain ⟨hb, hn, he, -, hsome⟩ := hpost
    obtain ⟨rec, hrec, hread, hdec, rfl⟩ := hsome peer _ rfl
    refine Reacted.deliver m (Touched.of_nodes hb hn he) ?_ _
    rw [Repository.hears_of_reload hheed (by simp) hc hrec hread hdec]
    simpa +zetaDelta [Repository.holds, node_eq_of_nodes hn] using hsame
  case vc4 r hheed hk jp hc p peer version hp s' hpost cached hsame live hoffer taken habsorb t
    | vc11 r hheed hk jp hc p peer version hp s' hpost cached hsame live hoffer taken habsorb t =>
    -- the live object takes the reload in
    obtain ⟨hb, hn, he, -, hsome⟩ := hpost
    obtain ⟨rec, hrec, hread, hdec, rfl⟩ := hsome peer _ rfl
    refine Reacted.deliver m (((Touched.of_nodes hb hn he).modifyObj _ _).cache _) ?_ _
    rw [Repository.hears_of_reload hheed (by simp) hc hrec hread hdec]
    simpa +zetaDelta [Repository.holds, node_eq_of_nodes hn] using hsame
  case vc5 r hheed hk jp hc p peer version hp s' hpost cached hsame live hoffer habsorb t₁ t
    | vc12 r hheed hk jp hc p peer version hp s' hpost cached hsame live hoffer habsorb t₁ t =>
    -- the reload replaces the live object
    obtain ⟨hb, hn, he, -, hsome⟩ := hpost
    obtain ⟨rec, hrec, hread, hdec, rfl⟩ := hsome peer _ rfl
    refine Reacted.deliver m ((Touched.of_nodes hb hn he).cache _) ?_ _
    rw [Repository.hears_of_reload hheed (by simp) hc hrec hread hdec]
    simpa +zetaDelta [Repository.holds, node_eq_of_nodes hn] using hsame
  case vc6 r hheed hk jp hc p hp s' t₁ t hpost | vc13 r hheed hk jp hc p hp s' t₁ t hpost =>
    -- nothing readable is stored: the entry is detached
    obtain ⟨hb, hn, he, hnone, -⟩ := hpost
    refine Reacted.deliver m (((Touched.of_nodes hb hn he).cache _).tell _ _) ?_ _
    rw [Repository.hears_of_heeds hheed, Repository.skips_of_unreadable hnone]
    rfl
  case vc7 r hheed hk jp hc f s' | vc14 r hheed hk jp hc f s' =>
    -- the reload fails
    rintro hb hn he ⟨rec, hrec, hread, hdec⟩
    refine Reacted.silent m hb hn he ?_
    rw [Repository.hears_of_heeds hheed, Repository.skips_of_undecoded (by simp) hc hrec hread hdec]
    rfl
  case vc8 r hheed hk jp hc t | vc15 r hheed hk jp hc t =>
    -- nothing cached to reload
    refine Reacted.deliver m (Touched.of_nodes rfl rfl rfl) ?_ _
    rw [Repository.hears_of_heeds hheed, Repository.skips_of_uncached (eq_false_of_ne_true hc)]
    rfl
  case vc16 r hheed hk t₁ t =>
    refine Reacted.deliver m (((Touched.of_nodes rfl rfl rfl).cache _).tell _ _) ?_ _
    rw [Repository.hears_of_heeds hheed, Repository.skips_delete]
    rfl
  case vc17 r hheed hk t₁ t =>
    refine Reacted.deliver m ((Touched.of_nodes rfl rfl rfl).cache _) ?_ _
    rw [Repository.hears_of_heeds hheed, Repository.skips_unknown]
    rfl

theorem reacted_run (j : Nat) (kind : ChangeKind) (id : Identity) (s : Cluster ω)
    (hready : s.backend.failures = 0) :
    Reacted m j kind id s ((onExternal m j kind id).run.run s).2 :=
  holds_of_triple (onExternal_reacted m j kind id s hready) (fun _ _ h => h) (fun _ _ h => h) rfl

/-- The run lemma of a delivery: the subscribers react in turn, none of them twice. -/
theorem forM_told (c : Cluster ω) (kind : ChangeKind) (id : Identity)
    (hready : c.backend.failures = 0) :
    ∀ js done : List Nat, (done ++ js).Nodup →
      ⦃fun s => ⌜Told m c kind id done s⌝⦄
      js.forM (fun j => do let _ ← attempt (onExternal m j kind id))
      ⦃post⟨fun _ s => ⌜Told m c kind id (done ++ js) s⌝, fun _ _ => ⌜False⌝⟩⦄ := by
  intro js
  induction js with
  | nil =>
    intro done _
    mvcgen [List.forM]
    simpa using ‹Told m c kind id done _›
  | cons j rest ih =>
    intro done hnd
    have hj : j ∉ done := fun h => (List.nodup_append.mp hnd).2.2 j h j (.head _) rfl
    have hstep : ⦃fun s => ⌜Told m c kind id done s⌝⦄ attempt (onExternal m j kind id)
        ⦃post⟨fun _ s => ⌜Told m c kind id (done ++ [j]) s⌝, fun _ _ => ⌜False⌝⟩⦄ := by
      refine triple_iff.mpr fun s hs => ?_
      exact hs.step m hj (reacted_run m j kind id s (hs.backend ▸ hready))
    have hrest := ih (done ++ [j]) (by simpa using hnd)
    mvcgen [List.forM, hstep, hrest]
    intro h
    simpa using h

/-- **Delivering a stored change.** With no failure injected and no node subscribed twice, every
subscriber reacts once, in the order they subscribed. -/
theorem notify_told (kind : ChangeKind) (id : Identity) (c : Cluster ω)
    (hnodup : (c.backend.changed id).2.Nodup) :
    ⦃fun s => ⌜s = c ∧ c.backend.failures = 0⌝⦄ notify m kind id
    ⦃post⟨fun _ s => ⌜Told m { c with backend := (c.backend.changed id).1 } kind id
        (c.backend.changed id).2 s⌝, fun _ _ => ⌜False⌝⟩⦄ := by
  intro s hs
  simp only [SPred.down_pure] at hs
  obtain ⟨rfl, hready⟩ := hs
  have hloop := forM_told m { s with backend := (s.backend.changed id).1 } kind id hready
    (s.backend.changed id).2 [] hnodup
  mvcgen [notify, hloop]
  exact ⟨rfl, rfl, fun _ _ => rfl, by simp [told]⟩

theorem storeSave_stored (id : Identity) (record : Record) (previous : Lineage) (c : Cluster ω)
    (hnodup : (c.backend.changed id).2.Nodup) :
    ⦃fun s => ⌜s = c⌝⦄ storeSave m id record previous
    ⦃post⟨fun _ s => ⌜Stored m c .update id true s⌝,
      fun _ s => ⌜Stored m c .update id false s⌝⟩⦄ := by
  intro s hs
  simp only [SPred.down_pure] at hs
  subst hs
  let b := (s.backend.save id record previous).1
  have hnotify := notify_told m .update id { s with backend := b }
    (by rw [Backend.subscribers_congr _ id (Backend.watchers_save _ _ _ _)]; exact hnodup)
  mvcgen [storeSave, onBackend, lift, hnotify]
  case vc1.h_1.pre v hsave =>
    obtain ⟨hready, -, hsaved⟩ := Backend.save_ok _ _ _ _ hsave
    refine ⟨rfl, ?_⟩
    show (s.backend.save id record previous).1.failures = 0
    rw [hsaved]
    exact hready
  case vc2 v hsave r s' htold =>
    exact Stored.of_told m (Backend.writes_save _ _ _ _) (Backend.watchers_save _ _ _ _) htold
  case vc3 f hsave => exact Stored.unchanged m (Backend.writes_save _ _ _ _) rfl rfl

theorem storeCreate_stored (id : Identity) (record : Record) (c : Cluster ω)
    (hnodup : (c.backend.changed id).2.Nodup) :
    ⦃fun s => ⌜s = c⌝⦄ storeCreate m id record
    ⦃post⟨fun _ s => ⌜Stored m c .new id true s⌝, fun _ s => ⌜Stored m c .new id false s⌝⟩⦄ := by
  intro s hs
  simp only [SPred.down_pure] at hs
  subst hs
  let b := (s.backend.createNew id record).1
  have hnotify := notify_told m .new id { s with backend := b }
    (by rw [Backend.subscribers_congr _ id (Backend.watchers_createNew _ _ _)]; exact hnodup)
  mvcgen [storeCreate, onBackend, lift, hnotify]
  case vc1.h_1.pre v hcreate =>
    obtain ⟨hready, -, hcreated⟩ := Backend.createNew_ok _ _ _ hcreate
    refine ⟨rfl, ?_⟩
    show (s.backend.createNew id record).1.failures = 0
    rw [hcreated]
    exact hready
  case vc2 v hcreate r s' htold =>
    exact Stored.of_told m (Backend.writes_createNew _ _ _) (Backend.watchers_createNew _ _ _) htold
  case vc3 f hcreate => exact Stored.unchanged m (Backend.writes_createNew _ _ _) rfl rfl

theorem storeDelete_stored (id : Identity) (c : Cluster ω)
    (hnodup : (c.backend.changed id).2.Nodup) :
    ⦃fun s => ⌜s = c⌝⦄ storeDelete m id
    ⦃post⟨fun gone s => ⌜Stored m c .delete id gone s⌝,
      fun _ s => ⌜Stored m c .delete id false s⌝⟩⦄ := by
  intro s hs
  simp only [SPred.down_pure] at hs
  subst hs
  let b := (s.backend.delete id).1
  have hnotify := notify_told m .delete id { s with backend := b }
    (by rw [Backend.subscribers_congr _ id (Backend.watchers_delete _ _)]; exact hnodup)
  mvcgen [storeDelete, onBackend, lift, hnotify]
  case vc1 gone hdel jp hgone => exact ⟨rfl, Backend.failures_delete _ _ hdel⟩
  case vc2 gone hdel jp hgone r s' htold =>
    subst hgone
    exact Stored.of_told m (Backend.writes_delete _ _) (Backend.watchers_delete _ _) htold
  case vc3 gone hdel jp hgone =>
    rw [Bool.not_eq_true] at hgone
    subst hgone
    exact Stored.unchanged m (Backend.writes_delete _ _) rfl rfl
  case vc4 f hdel => exact Stored.unchanged m (Backend.writes_delete _ _) rfl rfl

omit [Inhabited ω] in
/-- **A store call of the node's own.** Counting the call as its own while it runs keeps the
writer out of the delivery, and the count is back where it was afterwards. -/
theorem ownWrite_relayed {β : Type} (i : Nat) (id : Identity) (kind : ChangeKind)
    (call : ClusterOp ω β) (changes : β → Bool) (c : Cluster ω) (hi : i < c.nodes.length)
    (hcall : ⦃fun s => ⌜s = c.modifyNode i fun r => r.ownWriteStep id true⌝⦄ call
      ⦃post⟨fun v s => ⌜Stored m (c.modifyNode i fun r => r.ownWriteStep id true) kind id
          (changes v) s⌝,
        fun _ s => ⌜Stored m (c.modifyNode i fun r => r.ownWriteStep id true) kind id false s⌝⟩⦄) :
    ⦃fun s => ⌜s = c⌝⦄ ownWrite i id call
    ⦃post⟨fun v s => ⌜Relayed m c i kind id (changes v) s⌝,
      fun _ s => ⌜Relayed m c i kind id false s⌝⟩⦄ := by
  intro s hs
  simp only [SPred.down_pure] at hs
  subst hs
  mvcgen [ownWrite, onNode, attempt_wp, hcall, lift]
  all_goals exact Stored.relayed m hi ‹_›

theorem writeBack_relayed (i : Nat) (id : Identity) (k : Nat) (previous : Lineage) (c : Cluster ω)
    (hi : i < c.nodes.length) (hnodup : (c.backend.changed id).2.Nodup) :
    ⦃fun s => ⌜s = c⌝⦄ writeBack m i id k previous
    ⦃post⟨fun _ s => ⌜Relayed m c i .update id true s⌝,
      fun _ s => ⌜Relayed m c i .update id false s⌝⟩⦄ := by
  intro s hs
  simp only [SPred.down_pure] at hs
  subst hs
  let c₁ := s.modifyObj k m.beforePersist
  have ht : Touched i s c₁ := (Touched.of_nodes rfl rfl rfl).modifyObj k _
  have hown : ∀ record, ⦃fun s => ⌜s = c₁⌝⦄ ownWrite i id (storeSave m id record previous)
      ⦃post⟨fun _ s => ⌜Relayed m c₁ i .update id true s⌝,
        fun _ s => ⌜Relayed m c₁ i .update id false s⌝⟩⦄ := fun record =>
    ownWrite_relayed m i id .update _ (fun _ => true) c₁ hi
      (storeSave_stored m id record previous _ hnodup)
  mvcgen [writeBack, encode, lift, hown]
  case vc1 r t rec henc v s' h t' =>
    exact (h.of_touched m ht).touched m ((Touched.of_nodes rfl rfl rfl).modifyObj k _)
  case vc2 => exact fun h => h.of_touched m ht
  -- the object did not encode: nothing was stored
  case vc3 => exact ((Touched.of_nodes rfl rfl rfl).modifyObj k _).relayed_rfl m

/-- **A write of node `i`'s entry of `id`** either saves it and announces the change once, or
stores and delivers nothing. -/
theorem write_announced (i : Nat) (id : Identity) (c : Cluster ω) (hi : i < c.nodes.length)
    (hnodup : (c.backend.changed id).2.Nodup) :
    ⦃fun s => ⌜s = c⌝⦄ write m i id
    ⦃post⟨fun w s => ⌜Announced m c i .update id w s⌝,
      fun _ s => ⌜Announced m c i .update id false s⌝⟩⦄ := by
  intro s hs
  simp only [SPred.down_pure] at hs
  subst hs
  have hwb : ∀ (cache : Cache) (t : FlushTicket),
      ⦃fun s' => ⌜s' = s.modifyNode i fun r => { r with cache }⌝⦄ writeBack m i id t.inst t.previous
      ⦃post⟨fun _ s' => ⌜Relayed m (s.modifyNode i fun r => { r with cache }) i .update id true s'⌝,
        fun _ s' => ⌜Relayed m (s.modifyNode i fun r => { r with cache }) i .update id false s'⌝⟩⦄ :=
    fun cache t => writeBack_relayed m i id t.inst t.previous _ (by simpa using hi) hnodup
  have hcache : ∀ (c : Cluster ω) (cache : Cache), Touched i c (c.modifyNode i fun r => { r with cache }) :=
    fun c cache => (Touched.of_nodes rfl rfl rfl).cache _
  mvcgen [write, onNode, attempt_wp, hwb, lift, fanOut, peek]
  -- the entry is not dirty: nothing to write
  case vc1 => exact (Touched.of_nodes rfl rfl rfl).relayed_rfl m |>.unannounced m (Touched.of_nodes rfl rfl rfl)
  case vc2 h a hw jp ha t =>
    subst ha
    exact (h.of_touched m (hcache _ _)).announced m (hcache _ _) _
  case vc7 h f hw => exact (h.of_touched m (hcache _ _)).unannounced m (hcache _ _)
  -- a finished write answers whether the store took it
  case vc3 h a hw jp ha =>
    rw [Cache.finishFlush_written] at hw
    cases hw
    exact absurd rfl ha
  case vc4 r s' h f hw | vc5 e s' h a hw _ _ _ | vc6 e s' h a hw _ _ =>
    simp [Except.map] at hw

theorem create_relayed (i : Nat) (id : Identity) (k : Nat) (c : Cluster ω)
    (hi : i < c.nodes.length) (hnodup : (c.backend.changed id).2.Nodup) :
    ⦃fun s => ⌜s = c⌝⦄ create m i id k
    ⦃post⟨fun _ s => ⌜Relayed m c i .new id true s⌝,
      fun _ s => ⌜Relayed m c i .new id false s⌝⟩⦄ := by
  intro s hs
  simp only [SPred.down_pure] at hs
  subst hs
  let c₁ := s.modifyObj k m.beforePersist
  have ht : Touched i s c₁ := (Touched.of_nodes rfl rfl rfl).modifyObj k _
  have hown : ∀ record, ⦃fun s => ⌜s = c₁⌝⦄ ownWrite i id (storeCreate m id record)
      ⦃post⟨fun _ s => ⌜Relayed m c₁ i .new id true s⌝,
        fun _ s => ⌜Relayed m c₁ i .new id false s⌝⟩⦄ := fun record =>
    ownWrite_relayed m i id .new _ (fun _ => true) c₁ hi (storeCreate_stored m id record _ hnodup)
  mvcgen [create, encode, lift, hown]
  case vc1 r t rec henc v s' h t' =>
    exact (h.of_touched m ht).touched m ((Touched.of_nodes rfl rfl rfl).modifyObj k _)
  case vc2 => exact fun h => h.of_touched m ht
  case vc3 => exact ((Touched.of_nodes rfl rfl rfl).modifyObj k _).relayed_rfl m

/-- **A removal by node `i`** either deletes the record and announces the deletion once, or
stores and delivers nothing. -/
theorem remove_announced (i : Nat) (id : Identity) (c : Cluster ω) (hi : i < c.nodes.length)
    (hnodup : (c.backend.changed id).2.Nodup) :
    ⦃fun s => ⌜s = c⌝⦄ remove m i id
    ⦃post⟨fun gone s => ⌜Announced m c i .delete id gone s⌝,
      fun _ s => ⌜Announced m c i .delete id false s⌝⟩⦄ := by
  intro s hs
  simp only [SPred.down_pure] at hs
  subst hs
  -- the node takes out its entry, tells its object, and drops a queued write before deleting
  let c₁ := ((((s.node i).cache.detachEntry id).2.toList.foldl (fun c n => c.modifyObj n m.markDeleted)
    (s.modifyNode i fun r => { r with cache := ((s.node i).cache.detachEntry id).1 })).modifyNode i
    fun r => { r with flusher := r.flusher.map fun f => (f.cancel id).1 })
  have ht : Touched i s c₁ :=
    (((Touched.of_nodes rfl rfl rfl).cache _).tell _ _).node _ (fun _ => rfl) (fun _ => rfl)
  have hown := ownWrite_relayed m i id .delete _ (fun gone => gone) c₁ (by rw [ht.length]; exact hi)
    (storeDelete_stored m id _ (by rw [backend_modifyNode, ht.backend]; exact hnodup))
  have hrfl : ∀ c : Cluster ω, Touched i c c := fun _ => Touched.of_nodes rfl rfl rfl
  mvcgen [remove, lift, detach, tell, cancelPending, onNode, hown, fanOut]
  case vc1 gone jp hgone s' h t =>
    subst hgone
    exact (h.of_touched m ht).announced m (hrfl _) _
  case vc2 gone jp hgone s' h =>
    rw [Bool.not_eq_true] at hgone
    subst hgone
    exact (h.of_touched m ht).unannounced m (hrfl _)
  case vc3 => exact fun h => (h.of_touched m ht).unannounced m (hrfl _)
  -- the identity is of another kind
  case vc4 => exact (hrfl s).relayed_rfl m |>.unannounced m (hrfl s)

theorem markUpdating_created (i : Nat) (id : Identity) (k : Nat) (c : Cluster ω)
    (hi : i < c.nodes.length) (hnodup : (c.backend.changed id).2.Nodup)
    (hnone : (c.node i).cache.entryOf id = none) :
    ⦃fun s => ⌜s = c⌝⦄ markUpdating m i id k
    ⦃post⟨fun p s => ⌜p.2 = true ∧ Relayed m c i .new id true s⌝,
      fun _ s => ⌜Relayed m c i .new id false s⌝⟩⦄ := by
  intro s hs
  simp only [SPred.down_pure] at hs
  subst hs
  have hmark : (s.node i).cache.markExisting id k s.now = none := by
    simp [Cache.markExisting, hnone]
  have hcreate := create_relayed m i id k s hi hnodup
  mvcgen [markUpdating, hcreate, onCache, tell]
  case vc1 hsome => simp [hmark] at hsome
  case vc2 hsome => simp [hmark] at hsome
  -- an evicted identity is refused before anything is stored
  case vc3 => exact (Touched.of_nodes rfl rfl rfl).relayed_rfl m
  case vc4 s' h now t =>
    exact ⟨trivial, h.touched m (((Touched.of_nodes rfl rfl rfl).cache _).tell _ _)⟩

/-- **An update of an object node `i` does not cache** creates its record and announces the
creation once, or stores and delivers nothing. -/
theorem update_announced (i k : Nat) (c : Cluster ω) (hi : i < c.nodes.length)
    (hnone : (c.node i).cache.entryOf (m.identity (c.obj k)) = none)
    (hnodup : (c.backend.changed (m.identity (c.obj k))).2.Nodup) :
    ⦃fun s => ⌜s = c⌝⦄ update m i k
    ⦃post⟨fun _ s => ⌜Announced m c i .new (m.identity (c.obj k)) true s⌝,
      fun _ s => ⌜Announced m c i .new (m.identity (c.obj k)) false s⌝⟩⦄ := by
  intro s hs
  simp only [SPred.down_pure] at hs
  subst hs
  have hrfl : ∀ c : Cluster ω, Touched i c c := fun _ => Touched.of_nodes rfl rfl rfl
  have hmark := markUpdating_created m i (m.identity (s.obj k)) k s hi hnodup hnone
  mvcgen [update, identityFor, lift, hmark, fanOut, peek]
  case vc1 r hc s' h t => exact h.2.announced m (hrfl _) _
  -- the record was created, so the update never reaches the flusher
  case vc2 r hnc s' h _ _ _ _ | vc3 r hnc s' h _ _ _ _ | vc4 r hnc s' h _ => exact absurd h.1 hnc
  case vc5 => exact fun h => h.unannounced m (hrfl _)
  -- the object is of a kind node `i` does not store
  case vc6 => exact (hrfl s).relayed_rfl m |>.unannounced m (hrfl s)

/-- **Every stored change is announced once by every node that hears it.** Where no node
subscribes twice to one kind, a write, a removal, and an update of an object node `i` does not
cache, each either stores a change and then every subscriber other than the writer that hears it
has fanned it out to its listeners once, in the order they subscribed, followed by the writer; or
stores nothing and delivers nothing. Either way the writer ends with as many of its own store
calls in progress as it started with. A subscriber hears a change of its kind unless it is in a
store call of its own for the identity, or it caches the identity and the stored record is one it
reads but cannot decode, or one whose lineage compares the same as its cached one. -/
theorem change_events_once (i k : Nat) (id : Identity) (c : Cluster ω) (hi : i < c.nodes.length)
    (hsubs : c.backend.watchers.Nodup)
    (hnone : (c.node i).cache.entryOf (m.identity (c.obj k)) = none) :
    Ends (fun w s => Announced m c i .update id w s) (fun _ s => Announced m c i .update id false s)
        ((write m i id).run.run c) ∧
      Ends (fun gone s => Announced m c i .delete id gone s)
        (fun _ s => Announced m c i .delete id false s) ((remove m i id).run.run c) ∧
      Ends (fun _ s => Announced m c i .new (m.identity (c.obj k)) true s)
        (fun _ s => Announced m c i .new (m.identity (c.obj k)) false s)
        ((update m i k).run.run c) :=
  ⟨triple_iff.mp (write_announced m i id c hi (Backend.subscribers_nodup _ id hsubs)) c rfl,
    triple_iff.mp (remove_announced m i id c hi (Backend.subscribers_nodup _ id hsubs)) c rfl,
    triple_iff.mp (update_announced m i k c hi hnone (Backend.subscribers_nodup _ _ hsubs)) c rfl⟩

end Ops

/-! Two nodes of one account, each with a listener, both subscribed to accounts. -/

/-- An account lineage whose one tag has the greatest magnitude a tag takes. -/
def saturatedByA : Lineage := ⟨[⟨"a", 0x7fffffffffffffff⟩]⟩

/-- The record of the account at the saturated lineage. -/
def saturatedRecord : Record := Record.empty.stamp ledgerAccount saturatedByA ⟨0, 0⟩ none

/-- A node of accounts with one listener and the given cache entries. -/
def listeningNode (name listener : String) (entries : List (Identity × CacheEntry)) :
    Repository :=
  { (default : Repository) with
    kind := "acct", node := name, maxRun := 5, listeners := ⟨[(0, listener)], 1⟩,
    cache := { Cache.empty 4 none with entries } }

/-- Node `a` and node `b`, with nothing cached and nothing stored. -/
def listeningPair : Cluster Nat :=
  ⟨⟨[], 0, 0, [("acct", 0), ("acct", 1)]⟩, [listeningNode "a" "LA" [], listeningNode "b" "LB" []],
    #[7], [], [], [], 0, 0⟩

/-- Node `a` updates an account it does not cache: the account is created, node `b` hears of it
and then node `a` announces it. -/
theorem change_events_once_ledger :
    0 < listeningPair.nodes.length ∧ listeningPair.backend.watchers.Nodup ∧
      (listeningPair.node 0).cache.entryOf (ledgerModel.identity (listeningPair.obj 1)) = none ∧
      Ends (fun _ s => Announced ledgerModel listeningPair 0 .new ledgerAccount true s)
        (fun _ s => Announced ledgerModel listeningPair 0 .new ledgerAccount false s)
        ((update ledgerModel 0 1).run.run listeningPair) :=
  ⟨by decide, by decide, rfl,
    (change_events_once ledgerModel 0 1 ledgerAccount listeningPair (by decide) (by decide)
      rfl).2.2⟩

/-- Node `a` and node `b` both cache the account at the saturated lineage, node `a` with a change
to write. -/
def saturatedPair : Cluster Nat :=
  ⟨⟨[(ledgerAccount, saturatedRecord)], 0, 0, [("acct", 0), ("acct", 1)]⟩,
    [listeningNode "a" "LA" [(ledgerAccount, ⟨1, saturatedByA, .dirty, false, 0, 1, 0⟩)],
      listeningNode "b" "LB" [(ledgerAccount, ⟨1, saturatedByA, .clean, false, 0, 1, 0⟩)]],
    #[7], [], [], [], 0, 0⟩

/-- Node `a`'s write of the saturated account is stored, node `b` is subscribed and listening,
yet only node `a`'s listener hears of it: the stored lineage compares the same as node `b`'s. -/
theorem change_events_once_saturated :
    ((write ledgerModel 0 ledgerAccount).run.run saturatedPair).1.toOption = some true ∧
      (saturatedPair.backend.changed ledgerAccount).2 = [0, 1] ∧
      (saturatedPair.node 1).listeners.snapshot = ["LB"] ∧
      (((write ledgerModel 0 ledgerAccount).run.run saturatedPair).2.backend.get?
        ledgerAccount).any ((saturatedPair.node 1).holds ledgerAccount) = true ∧
      ((write ledgerModel 0 ledgerAccount).run.run saturatedPair).2.events =
        [(0, "LA", .update, ledgerAccount)] := by
  refine ⟨?_, ?_, ?_, ?_, ?_⟩ <;> decide +kernel

end Cluster

end Stowage
