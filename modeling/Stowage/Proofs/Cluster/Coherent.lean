import Mathlib
import Stowage.Proofs.Cluster.Frame
/-!
Coherence of a node's cache with the store, for a node that writes its kind alone.

`Coherent n i K N M` says that node `i` is the only node of kind `K`, that every cache holds
identities of its own node's kind, that every entry of node `i` holds the lineage the store holds
for its identity, and that every stored lineage of kind `K` is the one some writes of node `i`
(node id `N`, runs capped at `M`) leave on the empty lineage.

The invariant survives every change that touches no record, and a change of one identity given
coherence at that identity. In a coherent cluster a save based on an entry of node `i` can fail
only by an injected failure, and a write of node `i` that goes through stores the lineage of one
write more.
-/
namespace Stowage

open Stowage.Version

namespace Version.Lineage

/-- The lineage `j` writes of node `node`, with runs capped at `maxRun`, leave on the empty
one. -/
def written (node : String) (maxRun j : Nat) : Lineage :=
  Lineage.empty.appendAll (List.replicate j ⟨node, false, maxRun⟩)

theorem written_succ (node : String) (maxRun j : Nat) :
    written node maxRun (j + 1) = (written node maxRun j).append node false maxRun := by
  rw [written, List.replicate_succ', appendAll_concat]
  rfl

end Version.Lineage

namespace Cluster

variable {ω : Type}

/-- **Single-writer coherence.** Node `i` of a cluster of `n` nodes writes kind `K` alone, under
node id `N` with runs capped at `M`: no other node is of kind `K`, every cache holds identities
of its own node's kind only, every entry of node `i` holds the lineage stored for its identity,
and every stored record of kind `K` carries some writes of node `i` on the empty lineage. -/
structure Coherent (n i : Nat) (K N : String) (M : Nat) (c : Cluster ω) : Prop where
  kind : (c.node i).kind = K
  node : (c.node i).node = N
  maxRun : (c.node i).maxRun = M
  alone : ∀ j < n, j ≠ i → (c.node j).kind ≠ K
  kinds : ∀ j, (c.node j).cache.OnVersions fun id _ => id.kind = (c.node j).kind
  cached : (c.node i).cache.OnVersions fun id v => ∃ r, c.backend.get? id = some r ∧ r.version = v
  stored : ∀ id r, id.kind = K → c.backend.get? id = some r →
    ∃ j, 0 < j ∧ r.version = Lineage.written N M j

section Frame

variable {n i : Nat} {K N : String} {M : Nat} {c c' : Cluster ω}

theorem Coherent.of_records (h : Coherent n i K N M c) (hr : c'.backend.records = c.backend.records)
    (hn : c'.nodes = c.nodes) : Coherent n i K N M c' := by
  have hnode : ∀ j, c'.node j = c.node j := fun j => by unfold Cluster.node; rw [hn]
  have hget : ∀ id, c'.backend.get? id = c.backend.get? id := fun id => by
    unfold Backend.get?; rw [hr]
  obtain ⟨hkind, hnd, hmax, halone, hkinds, hcached, hstored⟩ := h
  constructor <;> simp only [hnode, hget] <;> assumption

theorem Coherent.withBackend (h : Coherent n i K N M c) {b : Backend}
    (hcached : (c.node i).cache.OnVersions fun id v => ∃ r, b.get? id = some r ∧ r.version = v)
    (hstored : ∀ id r, id.kind = K → b.get? id = some r → ∃ j, 0 < j ∧ r.version = Lineage.written N M j) :
    Coherent n i K N M { c with backend := b } :=
  ⟨h.kind, h.node, h.maxRun, h.alone, h.kinds, hcached, hstored⟩

theorem Coherent.withRecords (h : Coherent n i K N M c) {b : Backend}
    (hb : b.records = c.backend.records) : Coherent n i K N M { c with backend := b } :=
  h.of_records hb rfl

theorem Coherent.modifyNode (h : Coherent n i K N M c) (j : Nat) {f : Repository → Repository}
    (hkind : (f (c.node j)).kind = (c.node j).kind) (hnode : (f (c.node j)).node = (c.node j).node)
    (hmax : (f (c.node j)).maxRun = (c.node j).maxRun)
    (hkinds : (f (c.node j)).cache.OnVersions fun id _ => id.kind = (c.node j).kind)
    (hcached : j = i →
      (f (c.node j)).cache.OnVersions fun id v => ∃ r, c.backend.get? id = some r ∧ r.version = v) :
    Coherent n i K N M (c.modifyNode j f) := by
  -- each field reads node `i` or another node through `node_modifyNode`
  have hsame : ∀ k, ((c.modifyNode j f).node k).kind = (c.node k).kind := fun k => by
    rw [node_modifyNode]; split
    · next hk => rw [hk.1]; exact hkind
    · rfl
  refine ⟨(hsame i).trans h.kind, ?_, ?_, fun k hk hki => (hsame k).trans_ne (h.alone k hk hki),
    fun k => ?_, ?_, h.stored⟩
  · rw [node_modifyNode]; split
    · next hk => obtain ⟨rfl, -⟩ := hk; rw [hnode]; exact h.node
    · exact h.node
  · rw [node_modifyNode]; split
    · next hk => obtain ⟨rfl, -⟩ := hk; rw [hmax]; exact h.maxRun
    · exact h.maxRun
  · rw [hsame k, node_modifyNode]; split
    · next hk => rw [hk.1]; exact hkinds
    · exact h.kinds k
  · rw [node_modifyNode]; split
    · next hk => obtain ⟨rfl, -⟩ := hk; exact hcached rfl
    · exact h.cached

theorem Coherent.cache (h : Coherent n i K N M c) (j : Nat) {cache : Cache}
    (hkinds : cache.OnVersions fun id _ => id.kind = (c.node j).kind)
    (hcached : j = i → cache.OnVersions fun id v => ∃ r, c.backend.get? id = some r ∧ r.version = v) :
    Coherent n i K N M (c.modifyNode j fun r => { r with cache }) :=
  h.modifyNode j rfl rfl rfl hkinds hcached

theorem Coherent.keepCache (h : Coherent n i K N M c) (j : Nat) {f : Repository → Repository}
    (hcache : (f (c.node j)).cache = (c.node j).cache)
    (hkind : (f (c.node j)).kind = (c.node j).kind) (hnode : (f (c.node j)).node = (c.node j).node)
    (hmax : (f (c.node j)).maxRun = (c.node j).maxRun) : Coherent n i K N M (c.modifyNode j f) :=
  h.modifyNode j hkind hnode hmax (hcache ▸ h.kinds j) fun hj => hcache ▸ hj ▸ h.cached

theorem Coherent.absent (h : Coherent n i K N M c) (hg : Good n c) {id : Identity}
    (hk : id.kind ≠ K) : (c.node i).cache.entryOf id = none := by
  cases he : (c.node i).cache.entryOf id with
  | none => rfl
  | some e =>
    have hki : id.kind = (c.node i).kind := (h.kinds i).version (hg.caches i).keyed he
    exact absurd (hki.trans h.kind) hk

theorem Coherent.foreign (h : Coherent n i K N M c) (hg : Good n c) {j : Nat} (hj : j < n)
    (hji : j ≠ i) {id : Identity} {e : CacheEntry} (he : (c.node j).cache.entryOf id = some e) :
    id.kind ≠ K := by
  rw [(h.kinds j).version (hg.caches j).keyed he]
  exact h.alone j hj hji

theorem Coherent.of_onlyAt (h : Coherent n i K N M c) (hg : Good n c) {id : Identity}
    (ho : OnlyAt id c c')
    (hcached : ∀ e, (c'.node i).cache.entryOf id = some e →
      ∃ r, c'.backend.get? id = some r ∧ r.version = e.version)
    (hstored : ∀ r, id.kind = K → c'.backend.get? id = some r →
      ∃ j, 0 < j ∧ r.version = Lineage.written N M j) :
    Coherent n i K N M c' where
  kind := (ho.kind i).trans h.kind
  node := (ho.node i).trans h.node
  maxRun := (ho.maxRun i).trans h.maxRun
  alone k hk hki := (ho.kind k).trans_ne (h.alone k hk hki)
  kinds k := by
    rw [ho.kind k]
    exact (h.kinds k).onlyAt (hg.caches k).keyed (ho.caches k)
  cached p hp := by
    have he := (Cache.entryOf_eq_some_iff (ho.caches i).keyed).mpr hp
    by_cases hx : p.1 = id
    · rw [hx] at he ⊢
      exact hcached p.2 he
    · -- another identity: the same entry, on the same record
      rw [(ho.caches i).others p.1 hx] at he
      obtain ⟨r, hr, hv⟩ := h.cached.version (hg.caches i).keyed he
      exact ⟨r, (ho.records p.1 hx).trans hr, hv⟩
  stored x r hk hr := by
    by_cases hx : x = id
    · subst hx
      exact hstored r hk hr
    · exact h.stored x r hk ((ho.records x hx).symm.trans hr)

theorem Coherent.entry_written (h : Coherent n i K N M c) (hg : Good n c) {id : Identity}
    {e : CacheEntry} (he : (c.node i).cache.entryOf id = some e) :
    ∃ j, 0 < j ∧ e.version = Lineage.written N M j ∧
      ∃ r, c.backend.get? id = some r ∧ r.version = e.version := by
  obtain ⟨r, hr, hv⟩ := h.cached.version (hg.caches i).keyed he
  have hK : id.kind = K := ((h.kinds i).version (hg.caches i).keyed he).trans h.kind
  obtain ⟨j, hj, hjv⟩ := h.stored id r hK hr
  exact ⟨j, hj, hv ▸ hjv, r, hr, hv⟩

theorem Coherent.save_error (h : Coherent n i K N M c) (hg : Good n c) {id : Identity}
    {e : CacheEntry} (he : (c.node i).cache.entryOf id = some e) {record : Record} {f : Fault}
    (hs : (c.backend.save id record e.version).2 = .error f) : f = .backend "injected failure" := by
  obtain ⟨-, -, -, r, hr, hv⟩ := h.entry_written hg he
  have hcurrent : Backend.current c.backend id = e.version := by
    rw [← hv]
    simp [Backend.current, hr]
  exact Backend.save_error_of_same _ _ _ _ (hcurrent ▸ Lineage.compare_self _) hs

theorem Coherent.saved_written (h : Coherent n i K N M c) (hg : Good n c) {id : Identity}
    (hs : Saved i id c c') :
    ∃ j, 0 < j ∧ (∃ r, c.backend.get? id = some r ∧ r.version = Lineage.written N M j) ∧
      ∃ r, c'.backend.get? id = some r ∧ r.version = Lineage.written N M (j + 1) := by
  obtain ⟨e, -, r, he, -, -, -, hr, hv, -, -, -⟩ := hs
  obtain ⟨j, hj, hjv, r₀, hr₀, hv₀⟩ := h.entry_written hg he
  refine ⟨j, hj, ⟨r₀, hr₀, hv₀.trans hjv⟩, r, hr, ?_⟩
  rw [hv, hjv, h.node, h.maxRun, Lineage.written_succ]

theorem Coherent.delete (h : Coherent n i K N M c) {id : Identity}
    (hnone : (c.node i).cache.entryOf id = none) :
    Coherent n i K N M { c with backend := (c.backend.delete id).1 } := by
  refine h.withBackend (h.cached.imp fun p hp hq => ?_) fun x r hK hr => ?_
  · have hx : p.1 ≠ id := fun hx =>
      Cache.entryOf_eq_none_iff.mp hnone p.2 (hx ▸ hp)
    rcases Backend.get?_delete c.backend id p.1 with hsame | ⟨-, hx'⟩
    · rwa [hsame]
    · exact absurd hx' hx
  · rcases Backend.get?_delete c.backend id x with hsame | ⟨hgone, -⟩
    · exact h.stored x r hK (hsame ▸ hr)
    · rw [hgone] at hr
      cases hr

end Frame

end Cluster

end Stowage
