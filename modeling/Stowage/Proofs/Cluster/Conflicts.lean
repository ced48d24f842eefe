import Mathlib
import Stowage.Proofs.Cluster.Runs
/-!
Optimistic concurrency between the nodes of a cluster.

Every write carries the lineage the change was based on, and the store takes it only while it
still holds a lineage the same as that base. A node that lost a race to another writer is
refused: nothing is stored or counted, no one hears of it, and its entry stays dirty on the
base it had. No cache holds an empty lineage, so a write of an identity whose record is gone
is always refused, and a write never brings a deleted record back.

A refused node starts over by discarding its entry and reading the identity again: the read
loads the stored record into a new object and caches it on the stored lineage, and writing
that object through is then based on what is stored, and goes through. The steps of that
recovery are specified here one operation at a time, each by a triple from a fixed cluster.
-/
open Std.Do

set_option mvcgen.warning false

namespace Stowage

open Stowage.Version

namespace Cluster

variable {ω : Type} [Inhabited ω] (m : ObjectModel ω) {n : Nat}

omit [Inhabited ω] in
theorem run_ok_of_triple {β : Type} {op : ClusterOp ω β} {P : Cluster ω → Prop}
    {Q : β → Cluster ω → Prop}
    (h : ⦃fun c => ⌜P c⌝⦄ op ⦃post⟨fun a c => ⌜Q a c⌝, fun _ _ => ⌜False⌝⟩⦄) {c : Cluster ω}
    (hc : P c) : ∃ a c', op.run.run c = (.ok a, c') ∧ Q a c' := by
  have hend := triple_iff.mp h c hc
  revert hend
  rcases op.run.run c with ⟨_ | a, c'⟩
  · exact False.elim
  · exact fun hq => ⟨a, c', rfl, hq⟩

/-- **A write never brings a deleted record back.** With nothing stored for an identity, a
write of it is never stored, and nothing is stored for it afterwards. -/
theorem write_absent (i : Nat) (id : Identity) (c : Cluster ω) (hgood : Good n c) (hi : i < n)
    (hnone : c.backend.get? id = none) :
    ((write m i id).run.run c).1 ≠ .ok true ∧ ((write m i id).run.run c).2.backend.get? id = none := by
  have hend := triple_iff.mp (write_spec m i id c hgood hi) c rfl
  revert hend
  rcases (write m i id).run.run c with ⟨_ | _ | _, c'⟩
  · -- refused: no record changed
    rintro ⟨-, hrecords, -⟩
    refine ⟨by simp, ?_⟩
    unfold Backend.get?
    rw [hrecords]
    exact hnone
  · -- nothing to write: the cluster is as it was
    rintro ⟨-, rfl, -⟩
    exact ⟨by simp, hnone⟩
  · -- stored: a stored write found a record the same as its base
    rintro ⟨-, e, r₀, r, -, -, hr₀, -⟩
    rw [hnone] at hr₀
    cases hr₀

/-! ### Starting over -/

/-- **A write that nothing blocks is stored.** A dirty entry whose object encodes, with no
failure injected and the store holding a lineage the same as the entry's, is written. -/
theorem write_saved (i : Nat) (id : Identity) (c₀ : Cluster ω) (hgood : Good n c₀) (hi : i < n)
    {e : CacheEntry} (he : (c₀.node i).cache.entryOf id = some e) (hdirty : e.write = .dirty)
    (hfree : ¬ Blocked m id e.inst e.version c₀) :
    ⦃fun c => ⌜c = c₀⌝⦄ write m i id
    ⦃post⟨fun w c => ⌜w = true ∧ Good n c ∧ Saved i id c₀ c⌝, fun _ _ => ⌜False⌝⟩⦄ := by
  refine triple_iff.mpr fun c hc => ?_
  have hend := triple_iff.mp (write_spec m i id c₀ hgood hi) c hc
  subst hc
  revert hend
  rcases (write m i id).run.run c with ⟨_ | w, c'⟩
  · -- a refused write was blocked on the entry
    rintro ⟨-, -, -, -, -, e', he', -, hblocked, -⟩
    rw [he] at he'
    cases he'
    exact hfree hblocked
  · cases w
    · -- a write with nothing to do found no dirty entry
      rintro ⟨-, -, hclean⟩
      exact absurd hdirty (hclean e he)
    · exact fun h => ⟨rfl, h⟩


theorem markUpdating_existing (i : Nat) (id : Identity) (c₀ : Cluster ω) {cache : Cache}
    {e : CacheEntry} (hmark : (c₀.node i).cache.markExisting id e.inst c₀.now = some (.ok (cache, e.version))) :
    ⦃fun c => ⌜c = c₀⌝⦄ markUpdating m i id e.inst
    ⦃post⟨fun r c => ⌜r = (e.version, false) ∧ c = c₀.modifyNode i fun r => { r with cache }⌝,
      fun _ _ => ⌜False⌝⟩⦄ := by
  intro s hs
  simp only [SPred.down_pure] at hs
  subst hs
  mvcgen [markUpdating, onNode, hmark]

/-- **A write-through based on what is stored goes through.** Persisting the object of a
cached entry, where the object encodes, no failure is injected and the store holds a lineage
the same as the entry's, stores the entry's lineage with the node's tag on top and answers it. -/
theorem persist_stores (i k : Nat) (c₀ : Cluster ω) (hgood : Good n c₀) (hi : i < n)
    {id : Identity} {e : CacheEntry} (he : (c₀.node i).cache.entryOf id = some e) (hk : e.inst = k)
    (hid : m.identity (c₀.obj k) = id) (hkind : id.kind = (c₀.node i).kind)
    (hready : c₀.backend.failures = 0)
    (hsame : (Backend.current c₀.backend id).compare e.version = .same)
    (henc : ∃ rec, m.encode (m.beforePersist (c₀.obj k)) = .ok rec) :
    ⦃fun c => ⌜c = c₀⌝⦄ persist m i k
    ⦃post⟨fun v c => ⌜v = e.version.append (c₀.node i).node false (c₀.node i).maxRun ∧ Good n c ∧
        ∃ r, c.backend.get? id = some r ∧ r.version = v⌝,
      fun _ _ => ⌜False⌝⟩⦄ := by
  intro s hs
  simp only [SPred.down_pure] at hs
  subst hs hk hid
  have hlen : i < s.nodes.length := hgood.size ▸ hi
  obtain ⟨cache, hmark, hentry⟩ := Cache.markExisting_of_entryOf (hgood.caches i).keyed he s.now
  have hmarks := markUpdating_existing m i _ s hmark
  let id := m.identity (s.obj e.inst)
  let c₁ := (s.modifyNode i fun r => { r with cache }).modifyNode i fun r =>
    { r with flusher := r.flusher.map fun f => (f.cancel id).1 }
  have hgood₁ : Good n c₁ := (hgood.cache i ((hgood.caches i).markExisting hmark)
    ((hgood.objects i).markExisting (hgood.caches i).keyed hmark)).node rfl rfl
  have hnode₁ : c₁.node i =
      { (s.node i) with cache, flusher := (s.node i).flusher.map fun f => (f.cancel id).1 } := by
    rw [node_modifyNode_self _ _ _ (by simpa using hlen), node_modifyNode_self _ _ _ hlen]
  have hinst := (hgood.objects i).inst (hgood.caches i).keyed he
  have hfree : ¬ Blocked m id e.inst e.version c₁ := by
    rintro (⟨f, hf⟩ | hf | hf)
    · obtain ⟨rec, hrec⟩ := henc
      rw [show (c₁.modifyObj e.inst m.beforePersist).obj e.inst = m.beforePersist (s.obj e.inst) from
        obj_modifyObj_self c₁ hinst.1 hinst.2 _, hrec] at hf
      cases hf
    · exact hf hready
    · exact hf hsame
  have he₁ : (c₁.node i).cache.entryOf id = some { e with
      write := .dirty, expired := false, lastAccess := s.now, lastTick := (s.node i).cache.ticks + 1 } := by
    rw [hnode₁]
    exact hentry
  have hwrite := discard_ends (write_saved m i id c₁ hgood₁ hi he₁ rfl hfree)
  mvcgen [persist, identityFor, lift, hmarks, cancelPending, onNode, hwrite]
  case vc1 =>
    -- the entry was cached, so nothing is created
    obtain ⟨rfl, -⟩ := ‹_ ∧ _›
    simp at ‹(_ : Lineage × Bool).2 = true›
  case vc2 =>
    obtain ⟨-, rfl⟩ := ‹_ ∧ _›
    rfl
  case vc3 =>
    obtain ⟨-, -, hgood', e', r₀, r, he', -, -, -, hr, hv, -, -, hentry'⟩ := ‹∃ _, _›
    rw [hnode₁, hentry] at he'
    cases he'
    rw [hnode₁] at hv
    -- the answer is the lineage the finished write left in the entry
    refine ⟨?_, hgood', r, hr, ?_⟩ <;> simp +zetaDelta [Cache.version?, hentry', hv]
  case vc4 =>
    simp +zetaDelta [Repository.checkKind, hkind] at ‹Repository.checkKind _ _ = _›

/-- What node `i` needs to read the stored record `r` of `id` as the object `o`: the record is
stored, live and visible to the node, no failure is injected, and the object model decodes it to
an object of that identity. -/
structure Loadable (i : Nat) (id : Identity) (r : Record) (o : ω) (c : Cluster ω) : Prop where
  stored : c.backend.get? id = some r
  live : r.version.isDeleted = false
  kind : id.kind = (c.node i).kind
  visible : (c.node i).visible id.owner = true
  owner : (c.node i).visible r.owner? = true
  ready : c.backend.failures = 0
  decode : m.decode (c.node i).absorbs id r = .ok o
  identity : m.identity o = id

omit [Inhabited ω] in
theorem Loadable.of_node {i : Nat} {id : Identity} {r : Record} {o : ω} {c c' : Cluster ω}
    (h : Loadable m i id r o c) (hb : c'.backend = c.backend) {cache : Cache}
    {flusher : Option (Flusher Identity Identity)}
    (hn : c'.node i = { (c.node i) with cache, flusher }) : Loadable m i id r o c' where
  stored := hb ▸ h.stored
  live := h.live
  kind := by rw [hn]; exact h.kind
  visible := by rw [hn]; exact h.visible
  owner := by rw [hn]; exact h.owner
  ready := hb ▸ h.ready
  decode := by rw [hn]; exact h.decode
  identity := h.identity

omit [Inhabited ω] in
theorem load_loads (i : Nat) (id : Identity) (c₀ : Cluster ω) {r : Record} {o : ω}
    (hready : c₀.backend.failures = 0) (hr : c₀.backend.get? id = some r)
    (hlive : r.version.isDeleted = false) (hown : (c₀.node i).visible r.owner? = true)
    (hdec : m.decode (c₀.node i).absorbs id r = .ok o) (hid : m.identity o = id) :
    ⦃fun c => ⌜c = c₀⌝⦄ load m i id
    ⦃post⟨fun p c => ⌜p = some (c₀.objects.size + 1, r.version) ∧
        c = (c₀.make o).1.modifyObj (c₀.objects.size + 1) fun o => m.afterLoad o id r.version r.owner?⌝,
      fun _ _ => ⌜False⌝⟩⦄ := by
  intro s hs
  simp only [SPred.down_pure] at hs
  subst hs
  have hload : s.backend.load id = (s.backend, .ok (some (Loaded.ofStamped r))) := by
    rw [Backend.load_of_ready _ _ hready, hr]
    rfl
  mvcgen [load, onBackend, lift, hload]
  case vc1 r' hcut => simp +zetaDelta [Loaded.ofStamped, hlive, hown] at hcut
  case vc2 =>
    obtain rfl : _ = o := Except.ok.inj (‹m.decode _ _ _ = _›.symm.trans hdec)
    simp [hid] at ‹(_ != _) = true›
  case vc3 =>
    obtain rfl : _ = o := Except.ok.inj (‹m.decode _ _ _ = _›.symm.trans hdec)
    refine ⟨rfl, ?_⟩
    simp +zetaDelta only [hload]
    rfl
  case vc4 => cases ‹m.decode _ _ _ = _›.symm.trans hdec

section Install

variable (c : Cluster ω) (i : Nat) (id : Identity) (k : Nat) (v : Lineage) (now : Nat)

omit [Inhabited ω] in
@[simp] theorem backend_install :
    (List.foldl (fun c n => c.modifyObj n m.markDeleted)
      (c.modifyNode i fun r => { r with cache := ((c.node i).cache.install id k v now (c.heldBeyond i)).1 })
      ((c.node i).cache.install id k v now (c.heldBeyond i)).2).backend = c.backend := by
  simp

omit [Inhabited ω] in
theorem node_install (hlen : i < c.nodes.length) :
    (List.foldl (fun c n => c.modifyObj n m.markDeleted)
      (c.modifyNode i fun r => { r with cache := ((c.node i).cache.install id k v now (c.heldBeyond i)).1 })
      ((c.node i).cache.install id k v now (c.heldBeyond i)).2).node i =
      { (c.node i) with cache := ((c.node i).cache.install id k v now (c.heldBeyond i)).1 } := by
  rw [node_tell, node_modifyNode_self _ _ _ hlen]

theorem obj_install (hnone : (c.node i).cache.entryOf id = none)
    (hold : ∀ p ∈ (c.node i).cache.entries, 0 < p.2.inst ∧ p.2.inst < k) :
    (List.foldl (fun c n => c.modifyObj n m.markDeleted)
      (c.modifyNode i fun r => { r with cache := ((c.node i).cache.install id k v now (c.heldBeyond i)).1 })
      ((c.node i).cache.install id k v now (c.heldBeyond i)).2).obj k = c.obj k := by
  refine obj_tell _ _ _ fun x hx => ?_
  rw [Cache.install_none hnone] at hx
  obtain ⟨p, hp, rfl⟩ := Cache.insert_told _ id k v .clean now _ x hx
  have := hold p hp
  omega

end Install

/-- **A read after a discard loads.** Reading an identity that node `i` does not cache, whose
record the node can load, makes a new object of the record, caches it on the stored lineage and
answers it; only the node's cache and the objects change. -/
theorem fetch_loads (i : Nat) (id : Identity) (c₀ : Cluster ω) (hgood : Good n c₀) (hi : i < n) {r : Record}
    {o : ω} (h : Loadable m i id r o c₀) (hnone : (c₀.node i).cache.entryOf id = none) :
    ⦃fun c => ⌜c = c₀⌝⦄ fetch m i id
    ⦃post⟨fun p c => ⌜p = some (c₀.objects.size + 1) ∧ c.backend = c₀.backend ∧
        (∃ cache, c.node i = { (c₀.node i) with cache }) ∧
        (∃ e, (c.node i).cache.entryOf id = some e ∧ e.inst = c₀.objects.size + 1 ∧
          e.version = r.version) ∧
        c.obj (c₀.objects.size + 1) = m.afterLoad o id r.version r.owner?⌝,
      fun _ _ => ⌜False⌝⟩⦄ := by
  intro s hs
  simp only [SPred.down_pure] at hs
  subst hs
  have hhit : (s.node i).cache.hit? id s.now = none := by
    simp [Cache.hit?, Cache.lookup, hnone]
  have hlen : i < s.nodes.length := hgood.size ▸ hi
  let c₁ := s.modifyNode i fun r => { r with cache := r.cache.startLoad }
  have hnode₁ : c₁.node i = { (s.node i) with cache := (s.node i).cache.startLoad } :=
    node_modifyNode_self _ _ _ hlen
  have hload := load_loads m i id c₁ h.ready h.stored h.live (by rw [hnode₁]; exact h.owner)
    (by rw [hnode₁]; exact h.decode) h.identity
  mvcgen [fetch, lift, onNode, onCache, tell, hload]
  case vc1 => simp +zetaDelta [h.visible] at ‹(!_) = true›
  case vc2 => simp +zetaDelta [hhit] at ‹Cache.hit? _ _ _ = some _›
  case vc3 =>
    obtain ⟨hp, -⟩ := ‹_ ∧ _›
    simp at hp
  case vc4 =>
    obtain ⟨hp, rfl⟩ := ‹_ ∧ _›
    simp only [Option.some.injEq, Prod.mk.injEq] at hp
    obtain ⟨rfl, rfl⟩ := hp
    -- the cluster the load left: the new object is numbered after all others
    let k := s.objects.size + 1
    let s₂ := (c₁.make o).1.modifyObj k fun o => m.afterLoad o id r.version r.owner?
    have hnode₂ : s₂.node i = { (s.node i) with cache := (s.node i).cache.startLoad } := by
      simp only [s₂, node_modifyObj, node_make, hnode₁]
    have hlen₂ : i < s₂.nodes.length := by simpa [s₂, c₁] using hlen
    have hnone₂ : (s₂.node i).cache.entryOf id = none := by
      rw [hnode₂, Cache.entryOf_congr (Cache.entries_startLoad _)]
      exact hnone
    have hold : ∀ p ∈ (s₂.node i).cache.entries, 0 < p.2.inst ∧ p.2.inst < k := by
      intro p hp
      rw [hnode₂, Cache.entries_startLoad] at hp
      have := hgood.objects i p hp
      omega
    have hobj : s₂.obj k = m.afterLoad o id r.version r.owner? := by
      rw [obj_modifyObj_self _ (by omega) (by simp [k, c₁])]
      exact congrArg (fun x => m.afterLoad x id r.version r.owner?) (obj_make c₁ o)
    simp +zetaDelta only [objects_modifyNode]
    rw [backend_install, node_install m _ i id _ _ _ hlen₂, obj_install m _ i id _ _ _ hnone₂ hold]
    have hkeyed : (s₂.node i).cache.Keyed := by
      rw [hnode₂]
      exact (hgood.caches i).keyed
    refine ⟨trivial, rfl, ⟨_, by rw [hnode₂]⟩, ?_, hobj⟩
    rw [Cache.install_none hnone₂, Cache.insert_entryOf hkeyed hnone₂]
    exact ⟨_, rfl, rfl, rfl⟩
  case vc5 => simp +zetaDelta [Repository.checkKind, h.kind] at ‹Repository.checkKind _ _ = _›

omit [Inhabited ω] in
theorem discardEntry_clears (i : Nat) (id : Identity) (c₀ : Cluster ω) (hlen : i < c₀.nodes.length) :
    ⦃fun c => ⌜c = c₀⌝⦄ (discardEntry i id : ClusterOp ω Bool)
    ⦃post⟨fun _ c => ⌜c.backend = c₀.backend ∧ c.objects = c₀.objects ∧
        (∃ cache flusher, c.node i = { (c₀.node i) with cache, flusher }) ∧
        (c.node i).cache.entryOf id = none⌝,
      fun _ _ => ⌜False⌝⟩⦄ := by
  intro s hs
  simp only [SPred.down_pure] at hs
  subst hs
  mvcgen [discardEntry, cancelPending, onNode, detach]
  refine ⟨rfl, rfl, ?_, ?_⟩ <;> simp +zetaDelta [hlen, Cache.entryOf_detachEntry]

/-- What node `i` needs to start over on the stored record `r` of `id`: it can load the record
as the object `o`, which keeps its identity through the load hook and encodes after the
persist hook. -/
structure Reloadable (i : Nat) (id : Identity) (r : Record) (o : ω) (c : Cluster ω) : Prop
    extends Loadable m i id r o c where
  loaded : m.identity (m.afterLoad o id r.version r.owner?) = id
  encode : ∃ rec, m.encode (m.beforePersist (m.afterLoad o id r.version r.owner?)) = .ok rec

/-- **A node that lost a race starts over and goes through.** Discarding its entry of an
identity, reading the identity again and persisting the object read stores the stored lineage
with the node's tag on top, when nothing else runs in between. -/
theorem discard_fetch_persist (i : Nat) (id : Identity) (c : Cluster ω) (hgood : Good n c)
    (hi : i < n) {r : Record} {o : ω} (h : Reloadable m i id r o c) :
    ∃ b c₁ c₂ c₃, (discardEntry i id).run.run c = (.ok b, c₁) ∧
      (fetch m i id).run.run c₁ = (.ok (some (c.objects.size + 1)), c₂) ∧
      (persist m i (c.objects.size + 1)).run.run c₂ =
        (.ok (r.version.append (c.node i).node false (c.node i).maxRun), c₃) ∧
      ∃ r', c₃.backend.get? id = some r' ∧
        r'.version = r.version.append (c.node i).node false (c.node i).maxRun := by
  have hlen : i < c.nodes.length := hgood.size ▸ hi
  -- the discard
  obtain ⟨b, c₁, hrun₁, hb₁, hobj₁, ⟨cache₁, flusher₁, hn₁⟩, hnone₁⟩ :=
    run_ok_of_triple (discardEntry_clears i id c hlen) rfl
  have hgood₁ : Good n c₁ := by
    simpa [hrun₁] using good_of_triple (discardEntry_good i id) hgood
  -- the read
  obtain ⟨p, c₂, hrun₂, rfl, hb₂, ⟨cache₂, hn₂⟩, ⟨e, he, hk, hv⟩, hobj₂⟩ :=
    run_ok_of_triple (fetch_loads m i id c₁ hgood₁ hi (h.toLoadable.of_node m hb₁ hn₁) hnone₁) rfl
  have hgood₂ : Good n c₂ := by
    simpa [hrun₂] using good_of_triple (fetch_good m i id) hgood₁
  -- the write-through, based on the lineage the read cached, which is the stored one
  have hn : c₂.node i = { (c.node i) with cache := cache₂, flusher := flusher₁ } := by
    rw [hn₂, hn₁]
  have hb : c₂.backend = c.backend := hb₂.trans hb₁
  have hsame : (Backend.current c₂.backend id).compare e.version = .same := by
    rw [hv, hb, Backend.current, h.stored]
    exact Lineage.compare_self _
  rw [hobj₁] at hobj₂ hk
  obtain ⟨v, c₃, hrun₃, hv₃, -, r', hr', hv'⟩ := run_ok_of_triple
    (persist_stores m i _ c₂ hgood₂ hi he hk (by rw [hobj₂]; exact h.loaded)
      (by rw [hn]; exact h.kind) (by rw [hb]; exact h.ready) hsame
      (by rw [hobj₂]; exact h.encode)) rfl
  rw [hv₃, hv, hn] at hrun₃
  refine ⟨b, c₁, c₂, c₃, hrun₁, ?_, hrun₃, r', hr', ?_⟩
  · rw [hrun₂, hobj₁]
  · rw [hv', hv₃, hv, hn]

/-! ### The contract -/

/-- **Optimistic concurrency.** In a cluster of `n` nodes sharing one store, along every run no
cache holds an empty lineage. Every write from a good cluster, whichever operation or flusher
issues it, is stored on a base the store holds the same of, with the writer's tag on top and
compared higher than what it replaces, or is refused and leaves the records, the write count,
the other nodes, the deliveries and the writer's dirty entry as they were, or has nothing to do.
A write of an identity with nothing stored is never stored, so a deleted record stays deleted.
And a node that can reload the stored record starts over by discarding its entry, reading the
identity and persisting what it read, which stores the stored lineage with its tag on top. -/
theorem optimistic_concurrency (n : Nat) :
    (∀ c, Reachable m n c → Good n c ∧
      ∀ j id e, (c.node j).cache.entryOf id = some e → e.version.tags ≠ []) ∧
    (∀ c, Good n c → ∀ i < n, ∀ id,
      Ends (fun w c' => if w then Saved i id c c' else Unwritten i id c c')
        (fun _ c' => Refused m i id c c') ((write m i id).run.run c)) ∧
    (∀ c, Good n c → ∀ i < n, ∀ id, c.backend.get? id = none →
      ((write m i id).run.run c).1 ≠ .ok true ∧
        ((write m i id).run.run c).2.backend.get? id = none) ∧
    (∀ c, Good n c → ∀ i < n, ∀ id r o, Reloadable m i id r o c →
      ∃ b c₁ c₂ c₃, (discardEntry i id).run.run c = (.ok b, c₁) ∧
        (fetch m i id).run.run c₁ = (.ok (some (c.objects.size + 1)), c₂) ∧
        (persist m i (c.objects.size + 1)).run.run c₂ =
          (.ok (r.version.append (c.node i).node false (c.node i).maxRun), c₃) ∧
        ∃ r', c₃.backend.get? id = some r' ∧
          r'.version = r.version.append (c.node i).node false (c.node i).maxRun) := by
  refine ⟨fun c hc => ⟨hc.good m, fun j id e he => (((hc.good m).caches j).version he).nonempty⟩,
    fun c hgood i hi id => ?_, fun c hgood i hi id hnone => write_absent m i id c hgood hi hnone,
    fun c hgood i hi id r o h => discard_fetch_persist m i id c hgood hi h⟩
  -- the write contract, with the invariant after the write left out
  have hend := triple_iff.mp (write_spec m i id c hgood hi) c rfl
  revert hend
  rcases (write m i id).run.run c with ⟨_ | w, c'⟩
  · exact fun h => h.2
  · exact fun h => h.2

/-! A node that lost a race, as two nodes of one account find it. -/

/-- The account of the example below. -/
def ledgerAccount : Identity := ⟨"acct", "1", none⟩

/-- Objects that are plain numbers, all of the one account, written as empty records. -/
def ledgerModel : ObjectModel Nat where
  identity _ := ledgerAccount
  beforePersist o := o
  afterPersist o _ := o
  afterLoad o _ _ _ := o
  absorb _ _ := none
  markDeleted o := o
  encode _ := .ok Record.empty
  decode _ _ _ := .ok 0

/-- The account's lineage after node `a` created it. -/
def createdByA : Lineage := Lineage.empty.append "a" false 5

/-- The account's lineage after node `a` wrote it again. -/
def updatedByA : Lineage := createdByA.append "a" false 5

/-- The record of the account node `a` wrote last. -/
def updatedRecord : Record := Record.empty.stamp ledgerAccount updatedByA ⟨0, 0⟩ none

/-- Node `b`, holding a change of the account based on the lineage node `a` created. -/
def staleNode : Repository :=
  { (default : Repository) with
    kind := "acct", node := "b", maxRun := 5,
    cache := { Cache.empty 4 none with
      entries := [(ledgerAccount, ⟨1, createdByA, .dirty, false, 0, 1, 0⟩)] } }

/-- Node `b` alone, after node `a`'s second write reached the store. -/
def staleCluster : Cluster Nat :=
  ⟨⟨[(ledgerAccount, updatedRecord)], 0, 0, []⟩, [staleNode], #[7], [], [], [], 0, 0⟩

/-- Node `b`'s save is refused, and node `b` starts over on what node `a` stored: its write
stores `a+1;a+2;b+3`. -/
theorem optimistic_concurrency_restart :
    Good 1 staleCluster ∧ Reloadable ledgerModel 0 ledgerAccount updatedRecord 0 staleCluster ∧
      (∃ f c', (write ledgerModel 0 ledgerAccount).run.run staleCluster = (.error f, c') ∧
        Refused ledgerModel 0 ledgerAccount staleCluster c') ∧
      ∃ b c₁ c₂ c₃, (discardEntry 0 ledgerAccount).run.run staleCluster = (.ok b, c₁) ∧
        (fetch ledgerModel 0 ledgerAccount).run.run c₁ = (.ok (some 2), c₂) ∧
        (persist ledgerModel 0 2).run.run c₂ = (.ok (updatedByA.append "b" false 5), c₃) ∧
        ∃ r', c₃.backend.get? ledgerAccount = some r' ∧ r'.version = updatedByA.append "b" false 5 := by
  have hcreated : createdByA.Stamped := Lineage.stamped_first ⟨by decide, by decide⟩ false 5
  have hupdated : updatedByA.Stamped :=
    Lineage.Stamped.append hcreated.ascending hcreated.valid ⟨by decide, by decide⟩ false 5
  have hversion : updatedRecord.version = updatedByA := Record.version_stamp _ _ hupdated.valid _ _
  have hgood : Good 1 staleCluster := by
    refine ⟨rfl, ?_, fun j => ?_, fun j hj => ?_, fun j => ?_⟩
    · intro p hp
      obtain rfl : p = (ledgerAccount, updatedRecord) := List.mem_singleton.mp hp
      rw [hversion]
      exact hupdated
    · cases j with
      | zero => exact ⟨List.nodup_singleton _, fun p hp => by
          obtain rfl := List.mem_singleton.mp hp
          exact hcreated⟩
      | succ j => exact ⟨List.nodup_nil, fun p hp => by cases hp⟩
    · obtain rfl : j = 0 := by omega
      exact ⟨by decide, by decide⟩
    · cases j with
      | zero => intro p hp; obtain rfl := List.mem_singleton.mp hp; decide
      | succ j => intro p hp; cases hp
  have hreload : Reloadable ledgerModel 0 ledgerAccount updatedRecord 0 staleCluster :=
    { stored := by simp [Backend.get?, staleCluster]
      live := by rw [hversion]; decide
      kind := rfl
      visible := rfl
      owner := rfl
      ready := rfl
      decode := rfl
      identity := rfl
      loaded := rfl
      encode := ⟨_, rfl⟩ }
  have hentry : (staleCluster.node 0).cache.entryOf ledgerAccount =
      some ⟨1, createdByA, .dirty, false, 0, 1, 0⟩ := by
    simp [Cache.entryOf, staleCluster, staleNode, Cluster.node]
  have hclaim := optimistic_concurrency ledgerModel 1
  refine ⟨hgood, hreload, ?_, ?_⟩
  · -- the store holds a lineage higher than node `b`'s base, so its save is refused
    have hend := hclaim.2.1 staleCluster hgood 0 Nat.one_pos ledgerAccount
    revert hend
    rcases (write ledgerModel 0 ledgerAccount).run.run staleCluster with ⟨_ | _ | _, c'⟩
    · exact fun h => ⟨_, _, rfl, h⟩
    · rintro ⟨-, hclean⟩
      exact absurd rfl (hclean _ hentry)
    · rintro ⟨e, r₀, r, he, -, hr₀, hsame, -⟩
      rw [hentry] at he
      cases he
      simp [Backend.get?, staleCluster] at hr₀
      subst hr₀
      rw [hversion] at hsame
      have higher : updatedByA.compare createdByA = .higher := by decide
      simp [higher] at hsame
  · rw [← hversion]
    exact hclaim.2.2.2 staleCluster hgood 0 Nat.one_pos ledgerAccount updatedRecord 0 hreload

end Cluster

end Stowage
