import Mathlib
import Stowage.Repository.Cluster
import Stowage.Proofs.Store.Backend
import Stowage.Proofs.Cache.Stamped
import Stowage.Proofs.Flusher.Host
/-!
The invariant of a cluster, and what the nodes' reactions to stored changes keep.

A cluster keeps lineages in two places, the records of its store and the entries of its nodes'
caches. Lineages move between them: a load caches the stored lineage, a write stores the cached
one with the writer's tag on top, and a finished write caches what was stored. A cluster of `n`
nodes is good when its store and caches hold stamped lineages only, every node writes under a
valid node id, and every cache entry names an object that exists.

Operations are specified by Hoare triples over `ClusterOp`, proved by `mvcgen` from the
triples of the operations they call; `triple_iff` reads a triple back as a statement about
runs. This module covers what a stored change sets off: every subscriber reloads, detaches
or expires its entry, which keeps the invariant, and a node with a store call of its own in
progress on the identity ignores the change, so its own write never comes back to it.
-/
namespace Stowage

open Std.Do
open Stowage.Version

set_option mvcgen.warning false

namespace Repository

variable (r : Repository) (id : Identity)

@[simp] theorem cache_ownWriteStep (starting : Bool) : (r.ownWriteStep id starting).cache = r.cache := by
  unfold ownWriteStep; dsimp only; split_ifs <;> rfl

@[simp] theorem node_ownWriteStep (starting : Bool) : (r.ownWriteStep id starting).node = r.node := by
  unfold ownWriteStep; dsimp only; split_ifs <;> rfl

@[simp] theorem kind_ownWriteStep (starting : Bool) : (r.ownWriteStep id starting).kind = r.kind := by
  unfold ownWriteStep; dsimp only; split_ifs <;> rfl

@[simp] theorem maxRun_ownWriteStep (starting : Bool) :
    (r.ownWriteStep id starting).maxRun = r.maxRun := by
  unfold ownWriteStep; dsimp only; split_ifs <;> rfl

theorem isOwnWrite_ownWriteStep : (r.ownWriteStep id true).isOwnWrite id = true := by
  simp [ownWriteStep, isOwnWrite]

end Repository

namespace Cluster

variable {ω : Type}


section State

variable (c : Cluster ω) (i : Nat) (f : Repository → Repository)

@[simp] theorem backend_modifyNode : (c.modifyNode i f).backend = c.backend := rfl

@[simp] theorem length_modifyNode : (c.modifyNode i f).nodes.length = c.nodes.length :=
  List.length_modify _ _ _

theorem node_modifyNode (j : Nat) :
    (c.modifyNode i f).node j = if j = i ∧ i < c.nodes.length then f (c.node i) else c.node j := by
  unfold modifyNode node
  by_cases hj : j = i
  · subst hj
    by_cases hi : j < c.nodes.length
    · simp [hi, List.getD_eq_getElem?_getD]
    · simp [hi, List.getD_eq_getElem?_getD]
  · simp [hj, List.getD_eq_getElem?_getD, Ne.symm hj]

theorem node_modifyNode_ne {j : Nat} (hj : j ≠ i) : (c.modifyNode i f).node j = c.node j := by
  simp [node_modifyNode, hj]

@[simp] theorem node_modifyNode_self (hi : i < c.nodes.length) :
    (c.modifyNode i f).node i = f (c.node i) := by
  simp [node_modifyNode, hi]

@[simp] theorem objects_modifyNode : (c.modifyNode i f).objects = c.objects := rfl

@[simp] theorem deliveries_modifyNode : (c.modifyNode i f).deliveries = c.deliveries := rfl

@[simp] theorem clock_modifyNode : (c.modifyNode i f).clock = c.clock := rfl

@[simp] theorem obj_modifyNode [Inhabited ω] (k : Nat) : (c.modifyNode i f).obj k = c.obj k := rfl

@[simp] theorem modifyObj_modifyNode (k : Nat) (g : ω → ω) :
    (c.modifyNode i f).modifyObj k g = (c.modifyObj k g).modifyNode i f := rfl

@[simp] theorem backend_modifyObj (n : Nat) (g : ω → ω) : (c.modifyObj n g).backend = c.backend :=
  rfl

@[simp] theorem nodes_modifyObj (n : Nat) (g : ω → ω) : (c.modifyObj n g).nodes = c.nodes := rfl

@[simp] theorem node_modifyObj (n : Nat) (g : ω → ω) (j : Nat) : (c.modifyObj n g).node j = c.node j :=
  rfl

@[simp] theorem deliveries_modifyObj (n : Nat) (g : ω → ω) :
    (c.modifyObj n g).deliveries = c.deliveries := rfl

@[simp] theorem clock_modifyObj (n : Nat) (g : ω → ω) : (c.modifyObj n g).clock = c.clock := rfl

@[simp] theorem backend_make (o : ω) : (c.make o).1.backend = c.backend := rfl

@[simp] theorem nodes_make (o : ω) : (c.make o).1.nodes = c.nodes := rfl

@[simp] theorem backend_tell (insts : List Nat) (g : ω → ω) :
    (insts.foldl (fun c n => c.modifyObj n g) c).backend = c.backend := by
  induction insts generalizing c with
  | nil => rfl
  | cons n rest ih => exact ih _

@[simp] theorem nodes_tell (insts : List Nat) (g : ω → ω) :
    (insts.foldl (fun c n => c.modifyObj n g) c).nodes = c.nodes := by
  induction insts generalizing c with
  | nil => rfl
  | cons n rest ih => exact ih _

@[simp] theorem node_make (o : ω) (j : Nat) : (c.make o).1.node j = c.node j := rfl

@[simp] theorem node_tell (insts : List Nat) (g : ω → ω) (j : Nat) :
    (insts.foldl (fun c n => c.modifyObj n g) c).node j = c.node j := by
  unfold node
  rw [nodes_tell]

@[simp] theorem size_modifyObj (n : Nat) (g : ω → ω) :
    (c.modifyObj n g).objects.size = c.objects.size :=
  Array.size_modify ..

@[simp] theorem size_make (o : ω) : (c.make o).1.objects.size = c.objects.size + 1 :=
  Array.size_push ..

@[simp] theorem size_tell (insts : List Nat) (g : ω → ω) :
    (insts.foldl (fun c n => c.modifyObj n g) c).objects.size = c.objects.size := by
  induction insts generalizing c with
  | nil => rfl
  | cons n rest ih => exact (ih _).trans (size_modifyObj _ _ _)

@[simp] theorem node_withBackend (b : Backend) (j : Nat) :
    ({ c with backend := b } : Cluster ω).node j = c.node j := rfl

theorem obj_modifyObj_self [Inhabited ω] {k : Nat} (hk : 0 < k) (hsize : k ≤ c.objects.size)
    (g : ω → ω) : (c.modifyObj k g).obj k = g (c.obj k) := by
  have hlt : k - 1 < c.objects.size := by omega
  simp [obj, modifyObj, Array.getD_eq_getD_getElem?, hlt, Array.getElem_modify_self]

theorem obj_modifyObj_ne [Inhabited ω] {j k : Nat} (h : j - 1 ≠ k - 1) (g : ω → ω) :
    (c.modifyObj j g).obj k = c.obj k := by
  simp [obj, modifyObj, Array.getD_eq_getD_getElem?, Array.getElem?_modify, h]

theorem obj_make [Inhabited ω] (o : ω) : (c.make o).1.obj (c.objects.size + 1) = o := by
  simp [obj, make]

theorem obj_tell [Inhabited ω] (g : ω → ω) {k : Nat} :
    ∀ insts : List Nat, (∀ x ∈ insts, x - 1 ≠ k - 1) →
      (insts.foldl (fun c n => c.modifyObj n g) c).obj k = c.obj k := by
  intro insts
  induction insts generalizing c with
  | nil => intro _; rfl
  | cons x rest ih =>
    intro hk
    rw [List.foldl_cons, ih _ fun y hy => hk y (.tail _ hy)]
    exact obj_modifyObj_ne c (hk x (.head _)) g

end State

/-- **The invariant of a cluster of `n` nodes.** The store and every cache hold stamped
lineages only, every node writes under a valid node id, and cache entries name objects that
exist. -/
structure Good (n : Nat) (c : Cluster ω) : Prop where
  size : c.nodes.length = n
  stored : c.backend.Stamped
  caches : ∀ j, (c.node j).cache.Stamped
  ids : ∀ j < n, Tag.NodeValid (c.node j).node
  objects : ∀ j, (c.node j).cache.Within c.objects.size

section Good

variable {n : Nat} {c : Cluster ω}

theorem Good.of_frame (h : Good n c) {c' : Cluster ω} (hb : c'.backend.records = c.backend.records)
    (hn : c'.nodes = c.nodes) (hs : c.objects.size ≤ c'.objects.size) : Good n c' where
  size := hn ▸ h.size
  stored := by unfold Backend.Stamped; rw [hb]; exact h.stored
  caches j := by unfold node; rw [hn]; exact h.caches j
  ids j hj := by unfold node; rw [hn]; exact h.ids j hj
  objects j := by unfold node; rw [hn]; exact (h.objects j).mono hs

theorem Good.withBackend (h : Good n c) {b : Backend} (hb : b.Stamped) :
    Good n { c with backend := b } :=
  ⟨h.size, hb, h.caches, h.ids, h.objects⟩

theorem Good.modifyNode (h : Good n c) {i : Nat} {f : Repository → Repository}
    (hcache : (f (c.node i)).cache.Stamped) (hobj : (f (c.node i)).cache.Within c.objects.size)
    (hid : (f (c.node i)).node = (c.node i).node) : Good n (c.modifyNode i f) where
  size := by rw [length_modifyNode]; exact h.size
  stored := h.stored
  caches j := by
    rw [node_modifyNode]
    split
    · next hj => exact hj.1 ▸ hcache
    · exact h.caches j
  ids j hj := by
    rw [node_modifyNode]
    split
    · next hji => rw [hid, ← hji.1]; exact h.ids j hj
    · exact h.ids j hj
  objects j := by
    rw [node_modifyNode]
    split
    · next hj => exact hj.1 ▸ hobj
    · exact h.objects j

theorem Good.cache (h : Good n c) (i : Nat) {cache : Cache} (hcache : cache.Stamped)
    (hobj : cache.Within c.objects.size) : Good n (c.modifyNode i fun r => { r with cache }) :=
  h.modifyNode hcache hobj rfl

theorem Good.node (h : Good n c) {i : Nat} {f : Repository → Repository}
    (hcache : (f (c.node i)).cache = (c.node i).cache) (hid : (f (c.node i)).node = (c.node i).node) :
    Good n (c.modifyNode i f) :=
  h.modifyNode (hcache ▸ h.caches i) (hcache ▸ h.objects i) hid

end Good

section Ops

variable [Inhabited ω] (m : ObjectModel ω) {n : Nat}

omit [Inhabited ω] in
/-- Where a run of an operation ends, read by a postcondition for success and one for
failure. -/
def Ends {β : Type} (Q : β → Cluster ω → Prop) (E : Fault → Cluster ω → Prop) :
    Outcome β × Cluster ω → Prop
  | (.ok a, c) => Q a c
  | (.error f, c) => E f c

omit [Inhabited ω] in
theorem triple_iff {β : Type} {op : ClusterOp ω β} {P : Cluster ω → Prop}
    {Q : β → Cluster ω → Prop} {E : Fault → Cluster ω → Prop} :
    ⦃fun c => ⌜P c⌝⦄ op ⦃post⟨fun a c => ⌜Q a c⌝, fun f c => ⌜E f c⌝⟩⦄ ↔
      ∀ c, P c → Ends Q E (op.run.run c) := by
  refine forall_congr' fun c => imp_congr_right fun _ => ?_
  simp [WP.wp]
  show _ ↔ Ends Q E (StateT.run (ExceptT.run op) c).run
  generalize (StateT.run (ExceptT.run op) c).run = r
  obtain ⟨res, c'⟩ := r
  cases res <;> rfl

omit [Inhabited ω] in
theorem attempt_wp {β : Type} (x : ClusterOp ω β)
    (Q : PostCond (Outcome β) (.except Fault (.arg (Cluster ω) .pure))) :
    ⦃wp⟦x⟧ (fun a => Q.1 (.ok a), fun f => Q.1 (.error f), ())⦄ attempt x ⦃Q⦄ := by
  intro c hc
  simp [WP.wp, attempt] at hc ⊢
  generalize (StateT.run (ExceptT.run x) c).run = r at hc ⊢
  obtain ⟨res, c'⟩ := r
  cases res <;> exact hc

omit [Inhabited ω] in
/-- The run lemma of a loop over a list: what every turn keeps, the loop keeps. -/
theorem forM_keeps {Ψ : Cluster ω → Prop} {E : Fault → Cluster ω → Prop}
    {f : Nat → ClusterOp ω Unit}
    (hf : ∀ j, ⦃fun c => ⌜Ψ c⌝⦄ f j ⦃post⟨fun _ c => ⌜Ψ c⌝, fun f c => ⌜E f c⌝⟩⦄) (xs : List Nat) :
    ⦃fun c => ⌜Ψ c⌝⦄ xs.forM f ⦃post⟨fun _ c => ⌜Ψ c⌝, fun f c => ⌜E f c⌝⟩⦄ := by
  induction xs with
  | nil => mvcgen [List.forM]
  | cons j rest ih => mvcgen [List.forM, hf, ih]

/-- A property of the cluster that reads only the store's records and write count, the nodes
and how many objects there are, and that more objects keep. -/
def OnRecords (Φ : Cluster ω → Prop) : Prop :=
  ∀ c c' : Cluster ω, c'.backend.records = c.backend.records →
    c'.backend.writes = c.backend.writes → c'.nodes = c.nodes →
      c.objects.size ≤ c'.objects.size → Φ c → Φ c'

omit [Inhabited ω] in
theorem onRecords_good : OnRecords (Good n : Cluster ω → Prop) :=
  fun _ _ hr _ hn hs h => h.of_frame hr hn hs

omit [Inhabited ω] in
theorem load_spec (i : Nat) (id : Identity) {Φ : Cluster ω → Prop} (hΦ : OnRecords Φ) :
    ⦃fun c => ⌜Φ c⌝⦄ load m i id
    ⦃post⟨fun r c => ⌜Φ c ∧ ∀ p ∈ r, 0 < p.1 ∧ p.1 ≤ c.objects.size ∧
        ∃ rec, c.backend.get? id = some rec ∧ rec.version = p.2⌝,
      fun _ c => ⌜Φ c⌝⟩⦄ := by
  mvcgen [load, onBackend, lift]
  all_goals first
    | refine hΦ _ _ ?_ ?_ ?_ ?_ ‹Φ _› <;> simp +zetaDelta
    | refine ⟨hΦ _ _ ?_ ?_ ?_ ?_ ‹Φ _›, ?_⟩ <;> try simp +zetaDelta; done
  -- the answered object is the one just made, and the answered lineage is the stored one
  all_goals simp only [Option.mem_def, Option.some.injEq, forall_eq']
  subst_vars
  obtain ⟨rec, hrec, rfl⟩ := Backend.load_some _ _ ‹_›
  refine ⟨by simp +zetaDelta [make], by simp +zetaDelta [make], rec,
    by simpa +zetaDelta [Backend.get?] using hrec, rfl⟩

theorem fanOut_keeps {Φ : Cluster ω → Prop} {E : Fault → Cluster ω → Prop} (hΦ : OnRecords Φ)
    (j : Nat) (kind : ChangeKind) (id : Identity) (value : Option Nat) :
    ⦃fun c => ⌜Φ c⌝⦄ fanOut j kind id value ⦃post⟨fun _ c => ⌜Φ c⌝, fun f c => ⌜E f c⌝⟩⦄ := by
  mvcgen [fanOut]
  refine hΦ _ _ ?_ ?_ ?_ ?_ ‹Φ _› <;> simp +zetaDelta

omit [Inhabited ω] in
theorem tell_keeps {Φ : Cluster ω → Prop} (hΦ : OnRecords Φ) (insts : List Nat) :
    ⦃fun c => ⌜Φ c⌝⦄ tell m insts ⦃post⟨fun _ c => ⌜Φ c⌝, fun _ c => ⌜Φ c⌝⟩⦄ := by
  mvcgen [tell]
  refine hΦ _ _ ?_ ?_ ?_ ?_ ‹Φ _› <;> simp +zetaDelta

/-- The changes a reaction of node `j` to a change of `id` makes: to the store's failure count,
the objects and the deliveries, and to node `j`'s cache a refresh to a stored lineage, a
detached entry or an expired one. -/
structure Confined (j : Nat) (id : Identity) (Φ : Cluster ω → Prop) : Prop where
  frame : OnRecords Φ
  refresh : ∀ c (version : Lineage) (replacement : Option Nat),
    (∃ rec, c.backend.get? id = some rec ∧ rec.version = version) →
      (∀ k ∈ replacement, 0 < k ∧ k ≤ c.objects.size) → Φ c →
        Φ (c.modifyNode j fun r => { r with cache := r.cache.refresh id version replacement })
  detach : ∀ c : Cluster ω, Φ c →
    Φ (c.modifyNode j fun r => { r with cache := ((c.node j).cache.detachEntry id).1 })
  expire : ∀ c : Cluster ω, Φ c →
    Φ (c.modifyNode j fun r => { r with cache := (r.cache.expire id).1 })

omit [Inhabited ω] in
theorem confined_good (j : Nat) (id : Identity) : Confined j id (Good n : Cluster ω → Prop) where
  frame := onRecords_good
  refresh _ version replacement := fun ⟨_, hrec, hv⟩ hr h =>
    h.modifyNode ((h.caches j).refresh id (hv ▸ h.stored.get? hrec) replacement)
      ((h.objects j).refresh (h.caches j).keyed id version hr) rfl
  detach _ h := h.cache j ((h.caches j).detachEntry id) ((h.objects j).detachEntry id)
  expire _ h := h.modifyNode ((h.caches j).expire id) ((h.objects j).expire (h.caches j).keyed id) rfl

omit [Inhabited ω] in
theorem Confined.refreshLoaded {Φ : Cluster ω → Prop} {j : Nat} {id : Identity}
    (hΦ : Confined j id Φ) {c c' : Cluster ω} {peer : Nat} {version : Lineage}
    (h : Φ c ∧ ∀ p ∈ some (peer, version), 0 < p.1 ∧ p.1 ≤ c.objects.size ∧
      ∃ rec, c.backend.get? id = some rec ∧ rec.version = p.2)
    (hb : c'.backend = c.backend) (hn : c'.nodes = c.nodes)
    (hs : c'.objects.size = c.objects.size) {replacement : Option Nat}
    (hr : ∀ k ∈ replacement, k = peer) :
    Φ (c'.modifyNode j fun r => { r with cache := r.cache.refresh id version replacement }) := by
  obtain ⟨hpos, hpeer, hrec⟩ := h.2 _ rfl
  refine hΦ.refresh c' version replacement (hb ▸ hrec) (fun k hk => ?_)
    (hΦ.frame c c' (by rw [hb]) (by rw [hb]) hn hs.ge h.1)
  rw [hs, hr k hk]
  exact ⟨hpos, hpeer⟩

omit [Inhabited ω] in
theorem detach_keeps {Φ : Cluster ω → Prop} {j : Nat} {id : Identity} (hΦ : Confined j id Φ) :
    ⦃fun c => ⌜Φ c⌝⦄ detach j id ⦃post⟨fun _ c => ⌜Φ c⌝, fun _ c => ⌜Φ c⌝⟩⦄ := by
  mvcgen [detach]
  exact hΦ.detach _ ‹_›

/-- **A reaction to another writer's change keeps what its changes keep.** -/
theorem onExternal_keeps {Φ : Cluster ω → Prop} {j : Nat} {id : Identity} (hΦ : Confined j id Φ)
    (kind : ChangeKind) :
    ⦃fun c => ⌜Φ c⌝⦄ onExternal m j kind id ⦃post⟨fun _ c => ⌜Φ c⌝, fun _ c => ⌜Φ c⌝⟩⦄ := by
  have hload := load_spec m j id hΦ.frame
  have hfan := fanOut_keeps (E := fun _ c => Φ c) hΦ.frame
  have htell := tell_keeps m hΦ.frame
  have hdetach := detach_keeps hΦ
  mvcgen [onExternal, hload, hfan, htell, hdetach, peek, onNode]
  -- a reload either changes nothing, or refreshes the entry to the stored lineage; a deletion
  -- detaches the entry and an unknown change expires it
  all_goals first
    | exact ‹Φ _›
    | exact (‹Φ _ ∧ _›).1
    | exact hΦ.expire _ ‹Φ _›
    | exact hΦ.refreshLoaded ‹_› (by rfl) (by rfl) (by simp) (by simp)

/-- A property that no reaction of node `j` can change: it reads only the store's records and
write count, the other nodes and how many objects there are, and more objects keep it. -/
def Untouched (j : Nat) (Q : Cluster ω → Prop) : Prop :=
  ∀ c c' : Cluster ω, c'.backend.records = c.backend.records →
    c'.backend.writes = c.backend.writes → (∀ k, k ≠ j → c'.node k = c.node k) →
      c.objects.size ≤ c'.objects.size → Q c → Q c'

omit [Inhabited ω] in
theorem Confined.and {Φ Q : Cluster ω → Prop} {j : Nat} {id : Identity} (hΦ : Confined j id Φ)
    (hQ : Untouched j Q) : Confined j id fun c => Φ c ∧ Q c where
  frame c c' hr hw hn hs h :=
    ⟨hΦ.frame c c' hr hw hn hs h.1, hQ c c' hr hw (fun k _ => by unfold node; rw [hn]) hs h.2⟩
  refresh c version replacement hrec hr h :=
    ⟨hΦ.refresh c version replacement hrec hr h.1,
      hQ c _ rfl rfl (fun k hk => node_modifyNode_ne c j _ hk) le_rfl h.2⟩
  detach c h :=
    ⟨hΦ.detach c h.1, hQ c _ rfl rfl (fun k hk => node_modifyNode_ne c j _ hk) le_rfl h.2⟩
  expire c h :=
    ⟨hΦ.expire c h.1, hQ c _ rfl rfl (fun k hk => node_modifyNode_ne c j _ hk) le_rfl h.2⟩

theorem onExternal_own {Ψ : Cluster ω → Prop} {j : Nat} {id : Identity}
    (hown : ∀ c, Ψ c → (c.node j).isOwnWrite id = true) (kind : ChangeKind) :
    ⦃fun c => ⌜Ψ c⌝⦄ onExternal m j kind id ⦃post⟨fun _ c => ⌜Ψ c⌝, fun _ c => ⌜Ψ c⌝⟩⦄ := by
  mvcgen [onExternal]
  all_goals first
    | assumption
    | (have hs := hown _ ‹_›; simp_all +zetaDelta)

/-- **Delivering a stored change.** The change is counted, and then every subscriber's
reaction, failing or not, keeps what the reactions keep; the delivery itself never fails. -/
theorem notify_spec {Φ Ψ : Cluster ω → Prop} {E : Fault → Cluster ω → Prop} (kind : ChangeKind)
    (id : Identity) (hchanged : ∀ c, Φ c → Ψ { c with backend := (c.backend.changed id).1 })
    (hreact : ∀ j, ⦃fun c => ⌜Ψ c⌝⦄ onExternal m j kind id
      ⦃post⟨fun _ c => ⌜Ψ c⌝, fun _ c => ⌜Ψ c⌝⟩⦄) :
    ⦃fun c => ⌜Φ c⌝⦄ notify m kind id ⦃post⟨fun _ c => ⌜Ψ c⌝, fun f c => ⌜E f c⌝⟩⦄ := by
  have hturn : ∀ j, ⦃fun c => ⌜Ψ c⌝⦄ (do let _ ← attempt (onExternal m j kind id) : ClusterOp ω Unit)
      ⦃post⟨fun _ c => ⌜Ψ c⌝, fun f c => ⌜E f c⌝⟩⦄ := fun j => by
    have hj := hreact j
    mvcgen [attempt_wp, hj]
  have hloop := forM_keeps hturn
  mvcgen [notify, hloop]
  exact hchanged _ ‹_›

theorem notify_good (kind : ChangeKind) (id : Identity) :
    ⦃fun c => ⌜Good n c⌝⦄ notify m kind id ⦃post⟨fun _ c => ⌜Good n c⌝, fun _ c => ⌜Good n c⌝⟩⦄ :=
  notify_spec m kind id (fun _ h => h.of_frame rfl rfl le_rfl)
    fun j => onExternal_keeps m (confined_good j id) kind

theorem onExternal_aside {Q : Cluster ω → Prop} {i : Nat} {id : Identity}
    (hQ : ∀ j, j ≠ i → Untouched j Q) (hown : ∀ c, Q c → (c.node i).isOwnWrite id = true)
    (j : Nat) (kind : ChangeKind) :
    ⦃fun c => ⌜Good n c ∧ Q c⌝⦄ onExternal m j kind id
    ⦃post⟨fun _ c => ⌜Good n c ∧ Q c⌝, fun _ c => ⌜Good n c ∧ Q c⌝⟩⦄ := by
  by_cases hj : j = i
  · subst hj
    exact onExternal_own m (fun c h => hown c h.2) kind
  · exact onExternal_keeps m ((confined_good j id).and (hQ j hj)) kind

/-- **A node's own change comes back to nobody but the others.** While node `i` has a store
call in progress on `id`, delivering a change to `id` keeps the invariant and every property
that the other nodes' reactions cannot change. -/
theorem notify_aside {Φ Q : Cluster ω → Prop} {E : Fault → Cluster ω → Prop} {i : Nat}
    (kind : ChangeKind) (id : Identity) (hQ : ∀ j, j ≠ i → Untouched j Q)
    (hown : ∀ c, Q c → (c.node i).isOwnWrite id = true)
    (hchanged : ∀ c, Φ c →
      Good n { c with backend := (c.backend.changed id).1 } ∧ Q { c with backend := (c.backend.changed id).1 }) :
    ⦃fun c => ⌜Φ c⌝⦄ notify m kind id ⦃post⟨fun _ c => ⌜Good n c ∧ Q c⌝, fun f c => ⌜E f c⌝⟩⦄ :=
  notify_spec m kind id hchanged (onExternal_aside m hQ hown · kind)

end Ops

end Cluster

end Stowage
