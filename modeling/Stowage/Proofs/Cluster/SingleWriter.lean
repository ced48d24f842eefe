import Mathlib
import Stowage.Proofs.Cluster.Coherent
import Stowage.Proofs.Cluster.Conflicts
/-!
A node that writes its kind alone never meets a conflict.

When node `i` is the only node of its kind and the store starts with no record of the kind, the
cache of node `i` and the store agree at every step: every entry of node `i` holds the lineage
the store holds for its identity, and every stored record of the kind carries only writes of
node `i`, one on top of the other from the empty lineage. A load caches the stored lineage, a
creation stores the lineage it caches, a write stores one more tag on the lineage the entry
holds and caches what it stored, and the other nodes never touch the kind, since every cache
holds identities of its own node's kind only. So every save of node `i` is based on exactly what
the store holds, and it is refused only when the object does not encode or a failure is
injected.
-/
open Std.Do

set_option mvcgen.warning false

namespace Stowage

open Stowage.Version

namespace Cluster

variable {ω : Type} [Inhabited ω] (m : ObjectModel ω) {n i : Nat} {K N : String} {M : Nat}

omit [Inhabited ω] in
theorem onRecords_coherent : OnRecords fun c : Cluster ω => Good n c ∧ Coherent n i K N M c :=
  fun _ _ hr _ hn hs h => ⟨h.1.of_frame hr hn hs, h.2.of_records hr hn⟩

omit [Inhabited ω] in
theorem Coherent.modifyObj {c : Cluster ω} (h : Coherent n i K N M c) (k : Nat) (g : ω → ω) :
    Coherent n i K N M (c.modifyObj k g) :=
  h.of_records rfl rfl

omit [Inhabited ω] in
theorem Coherent.ownWriteStep {c : Cluster ω} (h : Coherent n i K N M c) (j : Nat) (id : Identity)
    (starting : Bool) : Coherent n i K N M (c.modifyNode j fun r => r.ownWriteStep id starting) :=
  h.keepCache j (Repository.cache_ownWriteStep _ _ _) (Repository.kind_ownWriteStep _ _ _)
    (Repository.node_ownWriteStep _ _ _) (Repository.maxRun_ownWriteStep _ _ _)

omit [Inhabited ω] in
theorem confined_coherent (j : Nat) (id : Identity) :
    Confined j id fun c : Cluster ω => Good n c ∧ Coherent n i K N M c where
  frame := onRecords_coherent
  refresh c version replacement hrec hr h := by
    obtain ⟨hg, h⟩ := h
    have hk := (hg.caches j).keyed
    refine ⟨(confined_good j id).refresh c version replacement hrec hr hg,
      h.modifyNode j rfl rfl rfl
        ((h.kinds j).refresh id (fun _ he => (h.kinds j).version hk he) replacement) fun hji => ?_⟩
    subst hji
    exact h.cached.refresh id (fun _ _ => hrec) replacement
  detach c h := ⟨(confined_good j id).detach c h.1,
    h.2.cache j ((h.2.kinds j).detachEntry id) fun hji => by subst hji; exact h.2.cached.detachEntry id⟩
  expire c h := ⟨(confined_good j id).expire c h.1,
    h.2.modifyNode j rfl rfl rfl ((h.2.kinds j).expire (h.1.caches j).keyed id) fun hji => by
      subst hji; exact h.2.cached.expire (h.1.caches _).keyed id⟩

omit [Inhabited ω] in
theorem Confined.both {Φ Ψ : Cluster ω → Prop} {j : Nat} {id : Identity} (hΦ : Confined j id Φ)
    (hΨ : Confined j id Ψ) : Confined j id fun c => Φ c ∧ Ψ c where
  frame c c' hr hw hn hs h := ⟨hΦ.frame c c' hr hw hn hs h.1, hΨ.frame c c' hr hw hn hs h.2⟩
  refresh c version replacement hrec hr h :=
    ⟨hΦ.refresh c version replacement hrec hr h.1, hΨ.refresh c version replacement hrec hr h.2⟩
  detach c h := ⟨hΦ.detach c h.1, hΨ.detach c h.2⟩
  expire c h := ⟨hΦ.expire c h.1, hΨ.expire c h.2⟩

omit [Inhabited ω] in
theorem confined_stored (j : Nat) (id x : Identity) (v : Lineage) :
    Confined j id fun c : Cluster ω => ∃ r, c.backend.get? x = some r ∧ r.version = v where
  frame _ _ hr _ _ _ h := by simp only [Backend.get?] at h ⊢; rwa [hr]
  refresh _ _ _ _ _ h := h
  detach _ h := h
  expire _ h := h

omit [Inhabited ω] in
theorem triple_and {β : Type} {op : ClusterOp ω β} {P : Cluster ω → Prop}
    {Q₁ Q₂ : β → Cluster ω → Prop} {E₁ E₂ : Fault → Cluster ω → Prop}
    (h₁ : ⦃fun c => ⌜P c⌝⦄ op ⦃post⟨fun a c => ⌜Q₁ a c⌝, fun f c => ⌜E₁ f c⌝⟩⦄)
    (h₂ : ⦃fun c => ⌜P c⌝⦄ op ⦃post⟨fun a c => ⌜Q₂ a c⌝, fun f c => ⌜E₂ f c⌝⟩⦄) :
    ⦃fun c => ⌜P c⌝⦄ op ⦃post⟨fun a c => ⌜Q₁ a c ∧ Q₂ a c⌝, fun f c => ⌜E₁ f c ∧ E₂ f c⌝⟩⦄ := by
  refine triple_iff.mpr fun c hc => ?_
  have e₁ := triple_iff.mp h₁ c hc
  have e₂ := triple_iff.mp h₂ c hc
  revert e₁ e₂
  rcases op.run.run c with ⟨_ | _, c'⟩ <;> exact fun e₁ e₂ => ⟨e₁, e₂⟩

omit [Inhabited ω] in
theorem onCache_coherent {P : Cluster ω → Prop} (j : Nat)
    (f : Cache → (Nat → Bool) → Cache × List Nat)
    (hf : ∀ c, P c → Good n c ∧ Coherent n i K N M c ∧
      (f (c.node j).cache (c.heldBeyond j)).1.Stamped ∧
      (f (c.node j).cache (c.heldBeyond j)).1.Within c.objects.size ∧
      (f (c.node j).cache (c.heldBeyond j)).1.OnVersions (fun id _ => id.kind = (c.node j).kind) ∧
      (j = i → (f (c.node j).cache (c.heldBeyond j)).1.OnVersions
        fun id v => ∃ r, c.backend.get? id = some r ∧ r.version = v)) :
    ⦃fun c => ⌜P c⌝⦄ onCache m j f
    ⦃post⟨fun _ c => ⌜Good n c ∧ Coherent n i K N M c⌝,
      fun _ c => ⌜Good n c ∧ Coherent n i K N M c⌝⟩⦄ := by
  have htell := fun insts => tell_keeps m (onRecords_coherent (n := n) (i := i) (K := K) (N := N)
    (M := M)) insts
  mvcgen [onCache, htell]
  obtain ⟨hg, h, hs, hw, hkinds, hcached⟩ := hf _ ‹_›
  exact ⟨hg.cache j hs hw, h.cache j hkinds hcached⟩

/-- **A write keeps coherence.** A write of node `i` stores one more of its tags on the lineage
its entry holds, which is the stored one, and caches what it stored; a refused write changes
nothing; another node writes only its own kind, which node `i` does not cache. -/
theorem write_coherent {j : Nat} (hj : j < n) (id : Identity) :
    ⦃fun c => ⌜Good n c ∧ Coherent n i K N M c⌝⦄ write m j id
    ⦃post⟨fun _ c => ⌜Good n c ∧ Coherent n i K N M c⌝,
      fun _ c => ⌜Good n c ∧ Coherent n i K N M c⌝⟩⦄ := by
  refine triple_iff.mpr fun c ⟨hg, h⟩ => ?_
  have hspec := triple_iff.mp (write_spec m j id c hg hj) c rfl
  have hframe := triple_iff.mp (write_onlyAt m j id c) c (OnlyAt.refl fun k => (hg.caches k).keyed)
  revert hspec hframe
  rcases (write m j id).run.run c with ⟨_ | w, c'⟩
  · rintro ⟨hg', hrec, -, hothers, -, e, he, -, -, he'⟩ ho
    refine ⟨hg', h.of_onlyAt hg ho (fun e' he'' => ?_) (fun r hk hr => ?_)⟩
    · -- node `i`'s entry of `id` is as it was, and so is the record
      have hsame : (c'.node i).cache.entryOf id = (c.node i).cache.entryOf id := by
        by_cases hji : j = i
        · subst hji
          rw [he, he']
        · rw [hothers i (Ne.symm hji)]
      obtain ⟨r, hr, hv⟩ := h.cached.version (hg.caches i).keyed (hsame ▸ he'')
      exact ⟨r, by unfold Backend.get?; rw [hrec]; exact hr, hv⟩
    · exact h.stored id r hk (by unfold Backend.get? at hr ⊢; rwa [hrec] at hr)
  · rintro ⟨hg', hw⟩ ho
    refine ⟨hg', ?_⟩
    cases w with
    | false =>
      rw [if_neg Bool.false_ne_true] at hw
      obtain ⟨rfl, -⟩ := hw
      exact h
    | true =>
      rw [if_pos rfl] at hw
      by_cases hji : j = i
      · subst hji
        -- the entry held the stored lineage, and now holds the one stored on top of it
        obtain ⟨k, -, -, r', hr', hv'⟩ := h.saved_written hg hw
        obtain ⟨e, -, r, -, -, -, -, hr, -, -, -, he'⟩ := hw
        refine h.of_onlyAt hg ho (fun e' he'' => ⟨r, hr, ?_⟩) (fun r'' _ hr'' => ?_)
        · rw [he'] at he''
          cases he''
          rfl
        · rw [hr'] at hr''
          cases hr''
          exact ⟨k + 1, k.succ_pos, hv'⟩
      · -- another node writes its own kind, of which node `i` caches nothing
        obtain ⟨e, -, -, he, -⟩ := hw
        have hk := h.foreign hg hj hji he
        refine h.of_onlyAt hg ho (fun e' he'' => ?_) (fun _ hk' _ => absurd hk' hk)
        exact absurd (h.absent hg hk)
          ((ho.caches i).present (by rw [he'']; exact Option.some_ne_none _))

omit [Inhabited ω] in
theorem kind_modifyNode {c : Cluster ω} {j : Nat} {f : Repository → Repository}
    (hf : ∀ r, (f r).kind = r.kind) (k : Nat) : ((c.modifyNode j f).node k).kind = (c.node k).kind := by
  rw [node_modifyNode]
  split
  · next hk => rw [hk.1]; exact hf _
  · rfl

omit [Inhabited ω] in
theorem cache_modifyNode {c : Cluster ω} {j : Nat} {f : Repository → Repository}
    (hf : ∀ r, (f r).cache = r.cache) (k : Nat) :
    ((c.modifyNode j f).node k).cache = (c.node k).cache := by
  rw [node_modifyNode]
  split
  · next hk => rw [hk.1]; exact hf _
  · rfl

theorem kind_of_checkKind {r : Repository} {id : Identity} {u : Unit} (h : r.checkKind id = .ok u) :
    id.kind = r.kind := by
  unfold Repository.checkKind at h
  split at h
  · next hk => exact beq_iff_eq.mp hk
  · cases h

omit [Inhabited ω] in
theorem fetch_coherent (j : Nat) (id : Identity) :
    ⦃fun c => ⌜Good n c ∧ Coherent n i K N M c⌝⦄ fetch m j id
    ⦃post⟨fun _ c => ⌜Good n c ∧ Coherent n i K N M c⌝,
      fun _ c => ⌜Good n c ∧ Coherent n i K N M c⌝⟩⦄ := by
  have hload := load_spec m j id
    (Φ := fun c => (Good n c ∧ Coherent n i K N M c) ∧ id.kind = (c.node j).kind)
    fun c c' hr hw hn hs h => ⟨onRecords_coherent c c' hr hw hn hs h.1, by
      unfold Cluster.node; rw [hn]; exact h.2⟩
  have hdiscard := onCache_coherent m (n := n) (i := i) (K := K) (N := N) (M := M)
    (P := fun c => Good n c ∧ Coherent n i K N M c) j
    (fun cache held => cache.discardExpired id held) fun c ⟨hg, h⟩ =>
      ⟨hg, h, (hg.caches j).discardExpired id _, (hg.objects j).discardExpired id _,
        (h.kinds j).discardExpired id _, fun hji => by subst hji; exact h.cached.discardExpired id _⟩
  have hinstall := fun k v now => onCache_coherent m (n := n) (i := i) (K := K) (N := N) (M := M)
    (P := fun c => ((Good n c ∧ Coherent n i K N M c) ∧ id.kind = (c.node j).kind) ∧
      ∀ p ∈ some (k, v), 0 < p.1 ∧ p.1 ≤ c.objects.size ∧
        ∃ rec, c.backend.get? id = some rec ∧ rec.version = p.2)
    j (fun cache held => cache.install id k v now held) fun c ⟨⟨⟨hg, h⟩, hkind⟩, hp⟩ => by
      -- the installed lineage is the stored one
      obtain ⟨hpos, hk, rec, hrec, hv⟩ := hp (k, v) rfl
      have hv : rec.version = v := hv
      exact ⟨hg, h, (hg.caches j).install id k (hv ▸ hg.stored.get? hrec) now _,
        (hg.objects j).install (hg.caches j).keyed id ⟨hpos, hk⟩ v now _,
        (h.kinds j).install (hg.caches j).keyed id k hkind now _,
        fun hji => by subst hji; exact h.cached.install (hg.caches _).keyed id k ⟨rec, hrec, hv⟩ now _⟩
  mvcgen [fetch, lift, onNode, hload, hdiscard, hinstall]
  case vc2.h_1.isFalse.h_1 =>
    -- a hit only touches the entry
    obtain ⟨hg, h⟩ := ‹Good n _ ∧ Coherent n i K N M _›
    have hhit := ‹Cache.hit? _ _ _ = some _›
    have hk := (hg.caches j).keyed
    exact ⟨hg.cache j ((hg.caches j).hit? hhit) ((hg.objects j).hit? hk hhit),
      h.cache j ((h.kinds j).hit? hk hhit) fun hji => by subst hji; exact h.cached.hit? hk hhit⟩
  case vc3.h_1.isFalse.h_2.pre =>
    -- a miss is counted, and the identity is of the node's kind
    obtain ⟨hg, h⟩ := ‹Good n _ ∧ Coherent n i K N M _›
    refine ⟨⟨hg.modifyNode (hg.caches j).startLoad ((hg.objects j).of_entries rfl) rfl,
      h.modifyNode j rfl rfl rfl (h.kinds j).startLoad fun hji => by
        subst hji; exact h.cached.startLoad⟩, ?_⟩
    rename_i _ _ _ _ hcheck _ _ _
    exact (kind_of_checkKind hcheck).trans
      (kind_modifyNode (f := fun r => { r with cache := r.cache.startLoad }) (fun _ => rfl) j).symm
  case vc4.h_1.isFalse.h_2.post.success.h_1.pre => exact (‹((Good n _ ∧ _) ∧ _) ∧ _›).1.1
  case vc6.h_1.isFalse.h_2.post.except.handle => exact fun hg h _ => ⟨hg, h⟩

theorem create_coherent {j : Nat} (hj : j < n) (id : Identity) (k : Nat) (c₀ : Cluster ω)
    (hg : Good n c₀) (h : Coherent n i K N M c₀) (hkind : id.kind = (c₀.node j).kind)
    (hnone : (c₀.node i).cache.entryOf id = none) :
    ⦃fun c => ⌜c = c₀⌝⦄ create m j id k
    ⦃post⟨fun v c => ⌜(Good n c ∧ Coherent n i K N M c) ∧ OnlyAt id c₀ c ∧
        ∃ r, c.backend.get? id = some r ∧ r.version = v⌝,
      fun _ c => ⌜Good n c ∧ Coherent n i K N M c⌝⟩⦄ := by
  intro s hs
  simp only [SPred.down_pure] at hs
  subst hs
  let v := Lineage.empty.append (s.node j).node false (s.node j).maxRun
  have hv : v.Stamped := Lineage.stamped_first (hg.ids j hj) false _
  have hstamp : ∀ rec : Record, (rec.stamp id v s.clock id.owner).version = v := fun rec =>
    Record.version_stamp rec id hv.valid _ _
  -- a record of kind `K` is created by node `i` alone, as its first write
  have hfirst : id.kind = K → v = Lineage.written N M 1 := fun hK => by
    have hji : j = i := by
      by_contra hji
      exact h.alone j hj hji (hkind ▸ hK)
    subst hji
    show Lineage.empty.append (s.node j).node false (s.node j).maxRun = _
    rw [h.node, h.maxRun]
    rfl
  have hnotify := notify_spec m (E := fun _ _ => False) .new id
    (Φ := fun c => (Good n c ∧ Coherent n i K N M c) ∧ OnlyAt id s c ∧
      ∃ r, c.backend.get? id = some r ∧ r.version = v)
    (Ψ := fun c => (Good n c ∧ Coherent n i K N M c) ∧ OnlyAt id s c ∧
      ∃ r, c.backend.get? id = some r ∧ r.version = v)
    (fun c hc => ⟨⟨hc.1.1.of_frame rfl rfl le_rfl, hc.1.2.of_records rfl rfl⟩,
      hc.2.1.of_records rfl rfl, hc.2.2⟩)
    fun j' => onExternal_keeps m ((confined_coherent j' id).both
      ((confined_onlyAt j' id s).both (confined_stored j' id id v))) .new
  have hframe : OnlyAt id s s := OnlyAt.refl fun k => (hg.caches k).keyed
  mvcgen [create, encode, ownWrite, storeCreate, onBackend, lift, onNode, attempt_wp, hnotify]
  case vc1.h_1.h_1.pre =>
    rename_i _ _ rec _ _ _ hcreate
    obtain ⟨hnew, -⟩ := Backend.get?_createNew_self _ _ _ hcreate
    have h₁ := (h.modifyObj k m.beforePersist).ownWriteStep j id true
    have hcache : (((s.modifyObj k m.beforePersist).modifyNode j fun r => r.ownWriteStep id true).node
        i).cache = (s.node i).cache := cache_modifyNode (fun _ => Repository.cache_ownWriteStep _ _ _) i
    refine ⟨⟨((hg.modifyObj k _).ownWriteStep j id true).createNew id (hstamp rec ▸ hv),
      h₁.withBackend ?_ ?_⟩, ((ownWriteStep_onlyAt (hframe.modifyObj k _) j id true).frame
        (fun _ hx => Backend.get?_createNew_ne _ id _ hx) rfl), ⟨_, hnew, hstamp rec⟩⟩
    · -- node `i` has no entry of the new identity, and its other entries keep their records
      refine h₁.cached.imp fun p hp hq => ?_
      have hx : p.1 ≠ id := fun hx => by
        rw [hcache] at hp
        exact Cache.entryOf_eq_none_iff.mp hnone p.2 (hx ▸ hp)
      rwa [Backend.get?_createNew_ne _ id _ hx]
    · intro x r hK hr
      by_cases hx : x = id
      · subst hx
        rw [hnew] at hr
        cases hr
        exact ⟨1, Nat.one_pos, (hstamp rec).trans (hfirst hK)⟩
      · rw [Backend.get?_createNew_ne _ id _ hx] at hr
        exact h₁.stored x r hK hr
  case vc2.h_1.h_1.post.success =>
    rename_i _ _ rec _ _ stored hcreate _ s₄ h₄ _ _
    obtain ⟨-, hstored⟩ := Backend.get?_createNew_self _ _ _ hcreate
    obtain ⟨⟨hg₄, hc₄⟩, ho₄, r, hr, hrv⟩ := h₄
    exact ⟨⟨(hg₄.ownWriteStep j id false).modifyObj k _, (hc₄.ownWriteStep j id false).modifyObj k _⟩,
      (ownWriteStep_onlyAt ho₄ j id false).modifyObj k _, r, hr, hrv.trans (hstamp rec ▸ hstored).symm⟩
  case vc3.h_1.h_2 =>
    rename_i _ _ rec _ _ f hcreate _
    have hsame := Backend.records_createNew_of_error _ _ _ hcreate
    exact ⟨(((hg.modifyObj k _).ownWriteStep j id true).createNew id (hstamp rec ▸ hv)).ownWriteStep
      j id false, (((h.modifyObj k _).ownWriteStep j id true).withRecords hsame).ownWriteStep j id false⟩
  case vc4.h_2 => exact ⟨hg.modifyObj k _, h.modifyObj k _⟩

omit [Inhabited ω] in
theorem onRecords_entry (j : Nat) (id : Identity) (Q : CacheEntry → Prop) :
    OnRecords fun c : Cluster ω => ∃ e, (c.node j).cache.entryOf id = some e ∧ Q e :=
  fun c c' _ _ hn _ h => by
    have hnode : c'.node j = c.node j := by unfold Cluster.node; rw [hn]
    obtain ⟨e, he, hq⟩ := h
    exact ⟨e, hnode ▸ he, hq⟩

omit [Inhabited ω] in
theorem onCache_node {P R : Cluster ω → Prop} (j : Nat)
    (f : Cache → (Nat → Bool) → Cache × List Nat) (hR : OnRecords R)
    (hf : ∀ c, P c → R (c.modifyNode j fun r => { r with cache := (f (c.node j).cache (c.heldBeyond j)).1 })) :
    ⦃fun c => ⌜P c⌝⦄ onCache m j f ⦃post⟨fun _ c => ⌜R c⌝, fun _ c => ⌜R c⌝⟩⦄ := by
  have htell := fun insts => tell_keeps m hR insts
  mvcgen [onCache, htell]
  exact hf _ ‹_›

theorem markUpdating_coherent {j : Nat} (hj : j < n) (id : Identity) (k : Nat) :
    ⦃fun c => ⌜(Good n c ∧ Coherent n i K N M c) ∧ (0 < k ∧ k ≤ c.objects.size) ∧
      id.kind = (c.node j).kind⌝⦄
    markUpdating m j id k
    ⦃post⟨fun p c => ⌜(Good n c ∧ Coherent n i K N M c) ∧
        ∃ e, (c.node j).cache.entryOf id = some e ∧ (p.2 = true → e.version = p.1)⌝,
      fun _ c => ⌜Good n c ∧ Coherent n i K N M c⌝⟩⦄ := by
  intro s hs
  simp only [SPred.down_pure] at hs
  obtain ⟨⟨hg, h⟩, hk, hkind⟩ := hs
  have hkeyed := (hg.caches j).keyed
  cases hm : (s.node j).cache.markExisting id k s.now with
  | some r =>
    mvcgen [markUpdating, onNode, hm]
    rename_i hr _
    rw [hr] at hm
    obtain ⟨e, he⟩ := Cache.markExisting_present hkeyed hm
    refine ⟨⟨hg.cache j ((hg.caches j).markExisting hm) ((hg.objects j).markExisting hkeyed hm),
      h.cache j ((h.kinds j).markExisting hkeyed hm) fun hji => by
        subst hji; exact h.cached.markExisting hkeyed hm⟩, e, ?_, fun hf => (Bool.false_ne_true hf).elim⟩
    rw [node_modifyNode_self _ j _ (hg.size ▸ hj)]
    exact he
  | none =>
    have hnone := Cache.markExisting_eq_none hm
    -- node `i` caches nothing of the identity: it is new to node `j`, of node `j`'s kind
    have hnone_i : (s.node i).cache.entryOf id = none := by
      by_cases hji : j = i
      · subst hji
        exact hnone
      · exact h.absent hg fun hK => h.alone j hj hji (hkind ▸ hK)
    have hcreate := triple_and (create_spec m j id k s hg hj)
      (create_coherent m hj id k s hg h hkind hnone_i)
    have hentry := fun stored now => onCache_node m
      (P := fun c => (Good n c ∧ stored.Stamped ∧ (c.node j).cache = (s.node j).cache ∧
          s.objects.size ≤ c.objects.size) ∧
        (Good n c ∧ Coherent n i K N M c) ∧ OnlyAt id s c ∧
          ∃ r, c.backend.get? id = some r ∧ r.version = stored)
      j (fun cache held => cache.insert id k stored .clean now held)
      (onRecords_entry j id fun e => e.version = stored) fun c hc' => by
        obtain ⟨⟨hg', -, hc, -⟩, -⟩ := hc'
        -- the new entry is the one capacity enforcement keeps
        rw [node_modifyNode_self _ j _ (hg'.size ▸ hj)]
        dsimp only
        rw [hc]
        exact ⟨_, Cache.insert_entryOf hkeyed hnone k stored .clean now _, rfl⟩
    have hinsert := fun stored now => triple_and (hentry stored now) <|
      onCache_coherent m (n := n) (i := i) (K := K) (N := N) (M := M)
      (P := fun c => (Good n c ∧ stored.Stamped ∧ (c.node j).cache = (s.node j).cache ∧
          s.objects.size ≤ c.objects.size) ∧
        (Good n c ∧ Coherent n i K N M c) ∧ OnlyAt id s c ∧
          ∃ r, c.backend.get? id = some r ∧ r.version = stored)
      j (fun cache held => cache.insert id k stored .clean now held)
      fun c hc' => by
        obtain ⟨⟨-, hv, hc, hsz⟩, ⟨hg', h'⟩, ho, hst⟩ := hc'
        rw [hc]
        refine ⟨hg', h', (hg.caches j).insert hnone k hv .clean now _,
          ((hg.objects j).mono hsz).insert hkeyed hnone ⟨hk.1, hk.2.trans hsz⟩ _ .clean now _,
          ?_, fun hji => ?_⟩
        · rw [ho.kind j]
          exact (h.kinds j).insert hkeyed hnone k hkind .clean now _
        · subst hji
          have hcached : (s.node j).cache.OnVersions
              fun id v => ∃ r, c.backend.get? id = some r ∧ r.version = v := hc ▸ h'.cached
          exact hcached.insert hkeyed hnone k hst .clean now _
    mvcgen [markUpdating, hm, hcreate, hinsert]
    case vc3.none.isFalse.post.success.post.success =>
      obtain ⟨hentry', hc⟩ := ‹(∃ e, _) ∧ _›
      exact ⟨hc, hentry'⟩
    all_goals exact fun _ hg' h' => ⟨hg', h'⟩

theorem update_coherent {j : Nat} (hj : j < n) (k : Nat) :
    ⦃fun c => ⌜(Good n c ∧ Coherent n i K N M c) ∧ 0 < k ∧ k ≤ c.objects.size⌝⦄ update m j k
    ⦃post⟨fun _ c => ⌜Good n c ∧ Coherent n i K N M c⌝,
      fun _ c => ⌜Good n c ∧ Coherent n i K N M c⌝⟩⦄ := by
  have hmark := fun id => markUpdating_coherent m (n := n) (i := i) (K := K) (N := N) (M := M) hj id k
  have hfan := fun id => fanOut_keeps (Φ := fun c : Cluster ω => Good n c ∧ Coherent n i K N M c)
    (E := fun _ c => Good n c ∧ Coherent n i K N M c) onRecords_coherent j .new id
  have hwrite := fun id => discard_keeps (write_coherent m (n := n) (i := i) (K := K) (N := N)
    (M := M) hj id)
  mvcgen [update, identityFor, lift, hmark, hfan, hwrite, peek, onNode]
  case vc1.h_1.pre =>
    -- the object's identity is of the node's kind
    obtain ⟨hc, hk⟩ := ‹(Good n _ ∧ _) ∧ _›
    exact ⟨hc, hk, kind_of_checkKind (by assumption)⟩
  case vc3.h_1.post.success.isFalse.h_1.h_1 =>
    -- a queued write only changes the node's flusher
    obtain ⟨⟨hg, h⟩, -⟩ := ‹(Good n _ ∧ Coherent n i K N M _) ∧ _›
    exact ⟨hg.node rfl rfl, h.keepCache j rfl rfl rfl rfl⟩
  all_goals exact (‹(Good n _ ∧ Coherent n i K N M _) ∧ _›).1

theorem write_keeps_entry {j : Nat} (hj : j < n) (id : Identity) :
    ⦃fun c => ⌜(Good n c ∧ Coherent n i K N M c) ∧ ∃ e, (c.node j).cache.entryOf id = some e⌝⦄
    write m j id
    ⦃post⟨fun _ c => ⌜(Good n c ∧ Coherent n i K N M c) ∧ ∃ e, (c.node j).cache.entryOf id = some e⌝,
      fun _ c => ⌜Good n c ∧ Coherent n i K N M c⌝⟩⦄ := by
  refine triple_iff.mpr fun c ⟨hc, e, he⟩ => ?_
  have hkeep := triple_iff.mp (write_coherent m hj id) c hc
  have hspec := triple_iff.mp (write_spec m j id c hc.1 hj) c rfl
  revert hkeep hspec
  rcases (write m j id).run.run c with ⟨_ | w, c'⟩
  · exact fun hkeep _ => hkeep
  · rintro hkeep ⟨-, hw⟩
    refine ⟨hkeep, ?_⟩
    cases w with
    | false =>
      rw [if_neg Bool.false_ne_true] at hw
      obtain ⟨rfl, -⟩ := hw
      exact ⟨e, he⟩
    | true =>
      rw [if_pos rfl] at hw
      obtain ⟨_, _, _, -, -, -, -, -, -, -, -, he'⟩ := hw
      exact ⟨_, he'⟩

theorem persist_coherent {j : Nat} (hj : j < n) (k : Nat) (id : Identity) :
    ⦃fun c => ⌜((Good n c ∧ Coherent n i K N M c) ∧ 0 < k ∧ k ≤ c.objects.size) ∧
      m.identity (c.obj k) = id⌝⦄
    persist m j k
    ⦃post⟨fun v c => ⌜(Good n c ∧ Coherent n i K N M c) ∧
        ∃ e, (c.node j).cache.entryOf id = some e ∧ e.version = v⌝,
      fun _ c => ⌜Good n c ∧ Coherent n i K N M c⌝⟩⦄ := by
  have hmark := fun id => markUpdating_coherent m (n := n) (i := i) (K := K) (N := N) (M := M) hj id k
  have hfan := fun (id : Identity) (v : Lineage) => fanOut_keeps
    (Φ := fun c : Cluster ω => (Good n c ∧ Coherent n i K N M c) ∧
      ∃ e, (c.node j).cache.entryOf id = some e ∧ e.version = v)
    (E := fun _ c => Good n c ∧ Coherent n i K N M c)
    (fun c c' hr hw hn hs h => ⟨onRecords_coherent c c' hr hw hn hs h.1,
      onRecords_entry j id _ c c' hr hw hn hs h.2⟩) j .new id
  have hwrite := fun id => discard_keeps (write_keeps_entry m (n := n) (i := i) (K := K) (N := N)
    (M := M) hj id)
  mvcgen [persist, identityFor, lift, hmark, hfan, hwrite, peek, cancelPending, onNode]
  case vc1.h_1.pre =>
    -- the object's identity is of the node's kind
    obtain ⟨⟨hc, hk⟩, -⟩ := ‹((Good n _ ∧ _) ∧ _) ∧ _›
    exact ⟨hc, hk, kind_of_checkKind (by assumption)⟩
  case vc2.v => exact (‹Lineage × Bool›).1
  case vc3.h_1.post.success.isTrue.pre =>
    -- a created identity is cached on the lineage the creation answered
    obtain ⟨hc, e, he, hv⟩ := ‹(Good n _ ∧ Coherent n i K N M _) ∧ ∃ e, _›
    exact ⟨hc, e, he, hv (by assumption)⟩
  case vc4.h_1.post.success.isTrue.post.success =>
    obtain ⟨-, rfl⟩ := ‹((Good n _ ∧ _) ∧ _) ∧ m.identity _ = id›
    exact ‹(Good n _ ∧ Coherent n i K N M _) ∧ ∃ e, _›
  case vc5.h_1.post.success.isFalse.pre =>
    -- dropping a queued write changes only the node's flusher
    obtain ⟨⟨hg, h⟩, e, he, -⟩ := ‹(Good n _ ∧ Coherent n i K N M _) ∧ ∃ e, _›
    refine ⟨⟨hg.node rfl rfl, h.keepCache j rfl rfl rfl rfl⟩, e,
      (congrArg (fun c => Cache.entryOf c _) (cache_modifyNode ?_ j)).trans he⟩
    exact fun _ => rfl
  case vc6.h_1.post.success.isFalse.post.success =>
    -- the answer is the lineage of the entry the write left
    obtain ⟨-, rfl⟩ := ‹((Good n _ ∧ _) ∧ _) ∧ m.identity _ = id›
    obtain ⟨hc, e, he⟩ := ‹(Good n _ ∧ Coherent n i K N M _) ∧ ∃ e, _›
    exact ⟨hc, e, he, by simp [Cache.version?, he]⟩
  case vc7.h_2 => exact (‹((Good n _ ∧ _) ∧ _) ∧ _›).1.1

theorem flush_coherent {j : Nat} (hj : j < n) (k : Nat) :
    ⦃fun c => ⌜Good n c ∧ Coherent n i K N M c⌝⦄ flush m j k
    ⦃post⟨fun _ c => ⌜Good n c ∧ Coherent n i K N M c⌝,
      fun _ c => ⌜Good n c ∧ Coherent n i K N M c⌝⟩⦄ := by
  have hwrite := fun id => write_coherent m (n := n) (i := i) (K := K) (N := N) (M := M) hj id
  mvcgen [flush, identityFor, lift, hwrite, cancelPending, onNode]
  -- dropping a queued write changes only the node's flusher
  obtain ⟨hg, h⟩ := ‹Good n _ ∧ Coherent n i K N M _›
  exact ⟨hg.node rfl rfl, h.keepCache j rfl rfl rfl rfl⟩

theorem flushHost_coherent {j : Nat} (hj : j < n) :
    (flushHost m j).Keeps fun c => Good n c ∧ Coherent n i K N M c :=
  flushHost_keeps_of m j (fun _ _ h => ⟨h.1.node rfl rfl, h.2.keepCache j rfl rfl rfl rfl⟩)
    (write_coherent m hj)

theorem storeDelete_coherent (id : Identity) :
    ⦃fun c => ⌜(Good n c ∧ Coherent n i K N M c) ∧ (c.node i).cache.entryOf id = none⌝⦄
    storeDelete m id
    ⦃post⟨fun _ c => ⌜Good n c ∧ Coherent n i K N M c⌝,
      fun _ c => ⌜Good n c ∧ Coherent n i K N M c⌝⟩⦄ := by
  have hnotify := notify_spec m (E := fun _ c => Good n c ∧ Coherent n i K N M c) .delete id
    (Φ := fun c => Good n c ∧ Coherent n i K N M c) (Ψ := fun c => Good n c ∧ Coherent n i K N M c)
    (fun _ h => ⟨h.1.of_frame rfl rfl le_rfl, h.2.of_records rfl rfl⟩)
    fun j => onExternal_keeps m (confined_coherent j id) .delete
  mvcgen [storeDelete, onBackend, lift, hnotify]
  all_goals
    obtain ⟨⟨hg, h⟩, hnone⟩ := ‹(Good n _ ∧ Coherent n i K N M _) ∧ _›
    exact ⟨hg.withBackend (hg.stored.delete id), h.delete hnone⟩

theorem remove_coherent {j : Nat} (hj : j < n) (id : Identity) :
    ⦃fun c => ⌜Good n c ∧ Coherent n i K N M c⌝⦄ remove m j id
    ⦃post⟨fun _ c => ⌜Good n c ∧ Coherent n i K N M c⌝,
      fun _ c => ⌜Good n c ∧ Coherent n i K N M c⌝⟩⦄ := by
  let R := fun c : Cluster ω => (Good n c ∧ Coherent n i K N M c) ∧ (c.node i).cache.entryOf id = none
  have hR : OnRecords R := fun c c' hr hw hn hs h => ⟨onRecords_coherent c c' hr hw hn hs h.1, by
    have hnode : c'.node i = c.node i := by unfold Cluster.node; rw [hn]
    rw [hnode]; exact h.2⟩
  have htell := fun insts => tell_keeps m hR insts
  have hdelete := storeDelete_coherent m (n := n) (i := i) (K := K) (N := N) (M := M) id
  have hfan := fanOut_keeps (Φ := fun c : Cluster ω => Good n c ∧ Coherent n i K N M c)
    (E := fun _ c => Good n c ∧ Coherent n i K N M c) onRecords_coherent j .delete id
  mvcgen [remove, lift, detach, htell, cancelPending, onNode, ownWrite, attempt_wp, hdelete, hfan]
  case vc1.h_1.pre =>
    -- after the detach node `i` caches nothing of the identity: it detached it, or the identity
    -- is of node `j`'s kind
    obtain ⟨hg, h⟩ := ‹Good n _ ∧ Coherent n i K N M _›
    have hkind := kind_of_checkKind (by assumption)
    refine ⟨(confined_coherent j id).detach _ ⟨hg, h⟩, ?_⟩
    by_cases hji : j = i
    · subst hji
      rw [node_modifyNode_self _ _ _ (hg.size ▸ hj)]
      exact (Cache.entryOf_detachEntry _ id id).trans (if_pos rfl)
    · rw [node_modifyNode_ne _ _ _ (Ne.symm hji)]
      exact h.absent hg fun hK => h.alone j hj hji (hkind ▸ hK)
  case vc2.h_1.post.success.pre =>
    -- dropping the queued write and starting the store call leave node `i`'s cache alone
    obtain ⟨⟨hg, h⟩, hnone⟩ := ‹(Good n _ ∧ Coherent n i K N M _) ∧ _›
    refine ⟨⟨(hg.node rfl rfl).ownWriteStep j id true,
      (h.keepCache j rfl rfl rfl rfl).ownWriteStep j id true⟩,
      (congrArg (fun c => Cache.entryOf c id) ((cache_modifyNode ?_ i).trans
        (cache_modifyNode ?_ i))).trans hnone⟩
    · exact fun r => Repository.cache_ownWriteStep r id true
    · exact fun _ => rfl
  case vc6.h_1.post.except.handle => exact fun h => h.1
  all_goals
    obtain ⟨hg, h⟩ := ‹Good n _ ∧ Coherent n i K N M _›
    exact ⟨hg.ownWriteStep j id false, h.ownWriteStep j id false⟩

omit [Inhabited ω] in
theorem discardEntry_coherent (j : Nat) (id : Identity) :
    ⦃fun c => ⌜Good n c ∧ Coherent n i K N M c⌝⦄ (discardEntry j id : ClusterOp ω Bool)
    ⦃post⟨fun _ c => ⌜Good n c ∧ Coherent n i K N M c⌝,
      fun _ c => ⌜Good n c ∧ Coherent n i K N M c⌝⟩⦄ := by
  have hdetach := detach_keeps (confined_coherent (n := n) (i := i) (K := K) (N := N) (M := M)
    (ω := ω) j id)
  mvcgen [discardEntry, hdetach, cancelPending, onNode]
  obtain ⟨hg, h⟩ := ‹Good n _ ∧ Coherent n i K N M _›
  exact ⟨hg.node rfl rfl, h.keepCache j rfl rfl rfl rfl⟩

omit [Inhabited ω] in
theorem addListener_coherent (j : Nat) (name : String) :
    ⦃fun c => ⌜Good n c ∧ Coherent n i K N M c⌝⦄ (addListener j name : ClusterOp ω Nat)
    ⦃post⟨fun _ c => ⌜Good n c ∧ Coherent n i K N M c⌝,
      fun _ c => ⌜Good n c ∧ Coherent n i K N M c⌝⟩⦄ := by
  mvcgen [addListener, onNode]
  -- listeners and the subscription flag are not part of coherence; a subscription only adds a
  -- watcher to the store
  all_goals
    obtain ⟨hg, h⟩ := ‹Good n _ ∧ Coherent n i K N M _›
    first
      | exact ⟨hg.node rfl rfl, h.keepCache j rfl rfl rfl rfl⟩
      | exact ⟨((hg.node rfl rfl).node rfl rfl).withBackend hg.stored,
          ((h.keepCache j rfl rfl rfl rfl).keepCache j rfl rfl rfl rfl).withRecords rfl⟩

omit [Inhabited ω] in
theorem evictIdle_coherent (j : Nat) :
    ⦃fun c => ⌜Good n c ∧ Coherent n i K N M c⌝⦄ evictIdle m j
    ⦃post⟨fun _ c => ⌜Good n c ∧ Coherent n i K N M c⌝,
      fun _ c => ⌜Good n c ∧ Coherent n i K N M c⌝⟩⦄ := by
  have htell := fun insts => tell_keeps m (onRecords_coherent (n := n) (i := i) (K := K) (N := N)
    (M := M)) insts
  mvcgen [evictIdle, htell]
  obtain ⟨hg, h⟩ := ‹Good n _ ∧ Coherent n i K N M _›
  have hk := (hg.caches j).keyed
  exact ⟨hg.cache j ((hg.caches j).sweep _ _) ((hg.objects j).sweep hk _ _),
    h.cache j ((h.kinds j).sweep hk _ _) fun hji => by subst hji; exact h.cached.sweep hk _ _⟩

omit [Inhabited ω] in
theorem coherent_of_triple {β : Type} {op : ClusterOp ω β} {P : Cluster ω → Prop}
    (h : ⦃fun c => ⌜P c⌝⦄ op
      ⦃post⟨fun _ c => ⌜Good n c ∧ Coherent n i K N M c⌝, fun _ c => ⌜Good n c ∧ Coherent n i K N M c⌝⟩⦄)
    {c : Cluster ω} (hc : P c) : Good n (op.run.run c).2 ∧ Coherent n i K N M (op.run.run c).2 :=
  holds_of_triple h (fun _ _ h => h) (fun _ _ h => h) hc

namespace Action

theorem coherent (a : Action ω) {c : Cluster ω} (hc : Good n c ∧ Coherent n i K N M c)
    (ha : a.Allowed n c) :
    Good n ((a.run m).run.run c).2 ∧ Coherent n i K N M ((a.run m).run.run c).2 := by
  cases a with
  | get j id => exact coherent_of_triple (discard_keeps (fetch_coherent m j id)) hc
  | update j k => exact coherent_of_triple (update_coherent m ha.1 k) ⟨hc, ha.2⟩
  | persist j k =>
    -- the persisted lineage is dropped: only the invariant half of the success end is kept
    exact holds_of_triple (discard_ends (persist_coherent m ha.1 k _)) (fun _ _ ⟨_, h, _⟩ => h)
      (fun _ _ h => h) ⟨⟨hc, ha.2⟩, rfl⟩
  | flush j k => exact coherent_of_triple (discard_keeps (flush_coherent m ha k)) hc
  | flushAll j => exact coherent_of_triple (flushAll_keeps m (flushHost_coherent m ha)) hc
  | close j => exact coherent_of_triple (close_keeps m (flushHost_coherent m ha)) hc
  | settle j => exact coherent_of_triple (settle_keeps m (flushHost_coherent m ha)) hc
  | remove j id => exact coherent_of_triple (discard_keeps (remove_coherent m ha id)) hc
  | discard j id => exact coherent_of_triple (discard_keeps (discardEntry_coherent j id)) hc
  | external j kind id => exact coherent_of_triple (onExternal_keeps m (confined_coherent j id) kind) hc
  | listen j name => exact coherent_of_triple (discard_keeps (addListener_coherent j name)) hc
  | evict j => exact coherent_of_triple (discard_keeps (evictIdle_coherent m j)) hc
  | sleep ms =>
    have hk : ∀ j ∈ List.range c.nodes.length,
        (flushHost m j).Keeps fun c => Good n c ∧ Coherent n i K N M c :=
      fun j hj => flushHost_coherent m (hc.1.size ▸ List.mem_range.mp hj)
    obtain ⟨hg, h⟩ := sleepAll_keeps m ms _ hk hc
    exact ⟨hg.of_frame rfl rfl le_rfl, h.of_records rfl rfl⟩
  | make o =>
    show Good n (c.make o).1 ∧ Coherent n i K N M (c.make o).1
    exact ⟨hc.1.of_frame rfl rfl (by simp [Cluster.make]), hc.2.of_records rfl rfl⟩
  | edit k g => exact ⟨hc.1.modifyObj k g, hc.2.modifyObj k g⟩
  | hold h k => exact ⟨hc.1.of_frame rfl rfl le_rfl, hc.2.of_records rfl rfl⟩
  | drop h => exact ⟨hc.1.of_frame rfl rfl le_rfl, hc.2.of_records rfl rfl⟩
  | failNext count => exact ⟨hc.1.of_frame rfl rfl le_rfl, hc.2.of_records rfl rfl⟩

end Action

/-- The clusters a run of allowed actions reaches from `c₀`. -/
inductive Reaches (n : Nat) (c₀ : Cluster ω) : Cluster ω → Prop
  | start : Reaches n c₀ c₀
  | step {c : Cluster ω} (a : Action ω) : Reaches n c₀ c → a.Allowed n c →
      Reaches n c₀ ((a.run m).run.run c).2

/-- The run lemma of coherence. -/
theorem Reaches.coherent {c₀ c : Cluster ω} (h₀ : Good n c₀ ∧ Coherent n i K N M c₀)
    (h : Reaches m n c₀ c) : Good n c ∧ Coherent n i K N M c := by
  induction h with
  | start => exact h₀
  | step a _ ha ih => exact a.coherent m ih ha

omit [Inhabited ω] in
theorem Fresh.coherent {c : Cluster ω} (h : Fresh n c) (halone : ∀ j < n, j ≠ i → (c.node j).kind ≠ K)
    (hK : (c.node i).kind = K) (hN : (c.node i).node = N) (hM : (c.node i).maxRun = M)
    (hnew : ∀ id, id.kind = K → c.backend.get? id = none) : Coherent n i K N M c where
  kind := hK
  node := hN
  maxRun := hM
  alone := halone
  kinds j := .nil (h.empty j)
  cached := .nil (h.empty i)
  stored id r hk hr := by rw [hnew id hk] at hr; cases hr

/-- **A node that writes its kind alone never meets a conflict.** Start from a fresh cluster in
which node `i` is the only node of its kind and the store holds no record of the kind. Along
every run, write-through or write-behind, with flusher cycles and injected failures, node `i`
stays coherent with the store: a save based on any entry it caches fails only by an injected
failure, never by a version conflict. Every stored lineage of the kind is that of `j` writes of
node `i` on the empty lineage under its cap; a write that goes through takes it from `j` writes
to `j + 1`, and a persist answers the lineage it leaves stored. -/
theorem sole_writer_coherent {c₀ : Cluster ω} (hfresh : Fresh n c₀) (hi : i < n)
    (hK : (c₀.node i).kind = K) (hN : (c₀.node i).node = N) (hM : (c₀.node i).maxRun = M)
    (halone : ∀ j < n, j ≠ i → (c₀.node j).kind ≠ K)
    (hnew : ∀ id, id.kind = K → c₀.backend.get? id = none) {c : Cluster ω}
    (hc : Reaches m n c₀ c) :
    Coherent n i K N M c ∧
      (∀ id e record f, (c.node i).cache.entryOf id = some e →
        (c.backend.save id record e.version).2 = .error f → f = .backend "injected failure") ∧
      (∀ id c', (write m i id).run.run c = (.ok true, c') → ∃ j, 0 < j ∧
        (∃ r, c.backend.get? id = some r ∧ r.version = Lineage.written N M j) ∧
        ∃ r, c'.backend.get? id = some r ∧ r.version = Lineage.written N M (j + 1)) ∧
      (∀ k v c', 0 < k → k ≤ c.objects.size → (persist m i k).run.run c = (.ok v, c') →
        ∃ j, 0 < j ∧ v = Lineage.written N M j ∧
          ∃ r, c'.backend.get? (m.identity (c.obj k)) = some r ∧ r.version = v) := by
  obtain ⟨hg, h⟩ := hc.coherent m ⟨hfresh.good, hfresh.coherent halone hK hN hM hnew⟩
  refine ⟨h, fun id e record f he hs => h.save_error hg he hs, fun id c' hw => ?_,
    fun k v c' hk hks hp => ?_⟩
  · -- a write that answers `true` went through
    have hend := triple_iff.mp (write_spec m i id c hg hi) c rfl
    rw [hw] at hend
    exact h.saved_written hg hend.2
  · -- the persisted entry holds the stored lineage, which is the one answered
    have hend := triple_iff.mp (persist_coherent m hi k (m.identity (c.obj k))) c
      ⟨⟨⟨hg, h⟩, hk, hks⟩, rfl⟩
    rw [hp] at hend
    obtain ⟨⟨hg', h'⟩, e, he, hv⟩ := hend
    obtain ⟨j, hj, hjv, r, hr, hrv⟩ := h'.entry_written hg' he
    exact ⟨j, hj, hv ▸ hjv, r, hr, hrv.trans hv⟩

/-- Node `a`, keeping accounts, before it caches anything. -/
def soleNode : Repository :=
  { (default : Repository) with
    kind := "acct", node := "a", maxRun := 5, cache := Cache.empty 4 none }

/-- Node `a` alone over an empty store, with one object. -/
def soleLedger : Cluster Nat :=
  ⟨Backend.empty, [soleNode], #[7], [], [], [], 0, 0⟩

theorem run_eq_ok_of_toOption {ε σ α : Type} {x : Except ε α × σ} {a : α}
    (h : x.1.toOption = some a) : x = (.ok a, x.2) := by
  obtain ⟨r, s⟩ := x
  cases r with
  | error e => cases h
  | ok b => cases h; rfl

/-- Node `a` alone creates the account, then records a change of it while one failure is
injected: a save of the cached account fails on the failure, and so the write-through leaves
the account dirty. The cluster stays coherent; a write of the account then takes the stored
lineage from one write of `a` to two, and so does a persist, which answers the lineage it
stores. -/
theorem soleLedger_update_coherent :
    let c := (((Action.update 0 1 : Action Nat).run ledgerModel).run.run soleLedger).2
    let failing := (((Action.failNext 1 : Action Nat).run ledgerModel).run.run c).2
    let dirty := (((Action.update 0 1 : Action Nat).run ledgerModel).run.run failing).2
    Coherent 1 0 "acct" "a" 5 dirty ∧
      (∃ e f, (failing.node 0).cache.entryOf ledgerAccount = some e ∧
        (failing.backend.save ledgerAccount Record.empty e.version).2 = .error f ∧
        f = .backend "injected failure") ∧
      (∃ c', (write ledgerModel 0 ledgerAccount).run.run dirty = (.ok true, c') ∧ ∃ j, 0 < j ∧
        (∃ r, dirty.backend.get? ledgerAccount = some r ∧ r.version = Lineage.written "a" 5 j) ∧
        ∃ r, c'.backend.get? ledgerAccount = some r ∧ r.version = Lineage.written "a" 5 (j + 1)) ∧
      (∃ v c', (persist ledgerModel 0 1).run.run dirty = (.ok v, c') ∧
        ∃ j, 0 < j ∧ v = Lineage.written "a" 5 j ∧
          ∃ r, c'.backend.get? (ledgerModel.identity (dirty.obj 1)) = some r ∧ r.version = v) := by
  intro c failing dirty
  have hfresh : Fresh 1 soleLedger := by
    refine ⟨rfl, fun p hp => ?_, fun j hj => ?_, fun j => ?_⟩
    · cases hp
    · obtain rfl : j = 0 := by omega
      exact ⟨by decide, by decide⟩
    · cases j <;> rfl
  have halone : ∀ j < 1, j ≠ 0 → (soleLedger.node j).kind ≠ "acct" :=
    fun j hj hj0 => absurd (by omega) hj0
  -- the creation, the injected failure and the change are a run from the fresh cluster
  have hc : Reaches ledgerModel 1 soleLedger c :=
    .step (.update 0 1) .start ⟨Nat.one_pos, Nat.one_pos, le_rfl⟩
  have hf : Reaches ledgerModel 1 soleLedger failing := .step (.failNext 1) hc trivial
  have hd : Reaches ledgerModel 1 soleLedger dirty :=
    .step (.update 0 1) hf ⟨Nat.one_pos, Nat.one_pos, le_rfl⟩
  have hsave :=
    (sole_writer_coherent ledgerModel hfresh Nat.one_pos rfl rfl rfl halone (fun _ _ => rfl) hf).2.1
  obtain ⟨hco, -, hwrite, hpersist⟩ :=
    sole_writer_coherent ledgerModel hfresh Nat.one_pos rfl rfl rfl halone (fun _ _ => rfl) hd
  -- the write and the persist go through
  have hw : ((write ledgerModel 0 ledgerAccount).run.run dirty).1.toOption = some true := by
    decide +kernel
  obtain ⟨v, hv⟩ : ∃ v, ((persist ledgerModel 0 1).run.run dirty).1.toOption = some v :=
    Option.isSome_iff_exists.mp (by decide +kernel)
  have hwrun := run_eq_ok_of_toOption hw
  have hprun := run_eq_ok_of_toOption hv
  exact ⟨hco, ⟨_, _, rfl, rfl, hsave ledgerAccount _ Record.empty _ rfl rfl⟩,
    ⟨_, hwrun, hwrite _ _ hwrun⟩,
    ⟨_, _, hprun, hpersist 1 _ _ Nat.one_pos le_rfl hprun⟩⟩

end Cluster

end Stowage
