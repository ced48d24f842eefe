import Mathlib
import Stowage.Proofs.Cluster.SingleWriter
import Stowage.Proofs.Lineage.Runs
/-!
Runs of one node's tags stay within the cap along every run of a cluster.

`Capped n M` says that every node of a cluster of `n` writes under cap `M`, and that every
lineage the store holds and every lineage a cache holds has no stretch of one node's tags longer
than `max M 1`. A write puts the writer's tag on a lineage its cache holds, under the writer's
cap, so it keeps the bound (`RunsWithin.append`); a creation stores a single tag; a load and a
reaction to another writer's change cache what the store holds; every other operation keeps the
lineages it keeps or drops entries and records. So the bound holds along every run of allowed
actions, and the soak's cap check passes every stored lineage.
-/
open Std.Do

set_option mvcgen.warning false

namespace Stowage

open Stowage.Version

namespace Backend

/-- Every stored lineage has no stretch of one node's tags longer than `m`. -/
def RunsWithin (m : Nat) (b : Backend) : Prop := ∀ p ∈ b.records, p.2.version.RunsWithin m

section RunsWithin

variable {m : Nat} {b : Backend} (id : Identity) {r : Record}

theorem RunsWithin.get? (hb : b.RunsWithin m) {x : Identity} {rec : Record}
    (h : b.get? x = some rec) : rec.version.RunsWithin m :=
  hb _ (get?_mem h)

theorem RunsWithin.place (hb : b.RunsWithin m) (hr : r.version.RunsWithin m) :
    ∀ p ∈ Backend.place id r b.records, p.2.version.RunsWithin m := fun p hp => by
  rcases mem_place hp with rfl | hp
  · exact hr
  · exact hb p hp

theorem RunsWithin.save (hb : b.RunsWithin m) (hr : r.version.RunsWithin m) (previous : Lineage) :
    (b.save id r previous).1.RunsWithin m := by
  unfold RunsWithin
  rcases records_save b id r previous with h | h <;> rw [h]
  exacts [hb, hb.place id hr]

theorem RunsWithin.createNew (hb : b.RunsWithin m) (hr : r.version.RunsWithin m) :
    (b.createNew id r).1.RunsWithin m := by
  unfold RunsWithin
  rcases records_createNew b id r with h | h <;> rw [h]
  exacts [hb, hb.place id hr]

theorem RunsWithin.delete (hb : b.RunsWithin m) : (b.delete id).1.RunsWithin m := by
  unfold RunsWithin
  rcases records_delete b id with h | h <;> rw [h]
  exacts [hb, fun p hp => hb p (List.mem_filter.mp hp).1]

end RunsWithin

end Backend

namespace Cluster

variable {ω : Type}

/-- **Runs within the cap.** Every node of a cluster of `n` nodes writes under cap `M`, and no
lineage the store holds or a cache holds has a stretch of one node's tags longer than
`max M 1`. -/
structure Capped (n M : Nat) (c : Cluster ω) : Prop where
  maxRun : ∀ j < n, (c.node j).maxRun = M
  stored : c.backend.RunsWithin (max M 1)
  cached : ∀ j, (c.node j).cache.OnVersions fun _ v => v.RunsWithin (max M 1)

section Frame

variable {n M : Nat} {c c' : Cluster ω}

theorem Capped.of_frame (h : Capped n M c) (hr : c'.backend.records = c.backend.records)
    (hn : c'.nodes = c.nodes) : Capped n M c' := by
  have hnode : ∀ j, c'.node j = c.node j := fun j => by unfold Cluster.node; rw [hn]
  refine ⟨fun j hj => ?_, ?_, fun j => ?_⟩
  · rw [hnode]; exact h.maxRun j hj
  · unfold Backend.RunsWithin; rw [hr]; exact h.stored
  · rw [hnode]; exact h.cached j

theorem Capped.withBackend (h : Capped n M c) {b : Backend} (hb : b.RunsWithin (max M 1)) :
    Capped n M { c with backend := b } :=
  ⟨h.maxRun, hb, h.cached⟩

theorem Capped.modifyNode (h : Capped n M c) (j : Nat) {f : Repository → Repository}
    (hmax : (f (c.node j)).maxRun = (c.node j).maxRun)
    (hcache : (f (c.node j)).cache.OnVersions fun _ v => v.RunsWithin (max M 1)) :
    Capped n M (c.modifyNode j f) := by
  refine ⟨fun k hk => ?_, h.stored, fun k => ?_⟩ <;> rw [node_modifyNode] <;> split
  · next hkj => rw [hmax]; exact h.maxRun j (hkj.1 ▸ hk)
  · exact h.maxRun k hk
  · exact hcache
  · exact h.cached k

theorem Capped.cache (h : Capped n M c) (j : Nat) {cache : Cache}
    (hcache : cache.OnVersions fun _ v => v.RunsWithin (max M 1)) :
    Capped n M (c.modifyNode j fun r => { r with cache }) :=
  h.modifyNode j rfl hcache

theorem Capped.keepCache (h : Capped n M c) (j : Nat) {f : Repository → Repository}
    (hcache : (f (c.node j)).cache = (c.node j).cache)
    (hmax : (f (c.node j)).maxRun = (c.node j).maxRun) : Capped n M (c.modifyNode j f) :=
  h.modifyNode j hmax (hcache ▸ h.cached j)

theorem Capped.modifyObj (h : Capped n M c) (k : Nat) (g : ω → ω) : Capped n M (c.modifyObj k g) :=
  h.of_frame rfl rfl

theorem Capped.ownWriteStep (h : Capped n M c) (j : Nat) (id : Identity) (starting : Bool) :
    Capped n M (c.modifyNode j fun r => r.ownWriteStep id starting) :=
  h.keepCache j (Repository.cache_ownWriteStep _ _ _) (Repository.maxRun_ownWriteStep _ _ _)

theorem Capped.append (h : Capped n M c) {j : Nat} (hj : j < n) {v : Lineage}
    (hv : v.RunsWithin (max M 1)) (isDelete : Bool) :
    (v.append (c.node j).node isDelete (c.node j).maxRun).RunsWithin (max M 1) := by
  rw [h.maxRun j hj]
  exact hv.append _ isDelete

end Frame

variable [Inhabited ω] (m : ObjectModel ω) {n M : Nat}

omit [Inhabited ω] in
theorem onRecords_capped : OnRecords fun c : Cluster ω => Good n c ∧ Capped n M c :=
  fun _ _ hr _ hn hs h => ⟨h.1.of_frame hr hn hs, h.2.of_frame hr hn⟩

omit [Inhabited ω] in
theorem confined_capped (j : Nat) (id : Identity) :
    Confined j id fun c : Cluster ω => Good n c ∧ Capped n M c where
  frame := onRecords_capped
  refresh c version replacement hrec hr h := by
    obtain ⟨hg, h⟩ := h
    obtain ⟨rec, hget, hv⟩ := hrec
    refine ⟨(confined_good j id).refresh c version replacement ⟨rec, hget, hv⟩ hr hg,
      h.modifyNode j rfl ((h.cached j).refresh id (fun _ _ => hv ▸ h.stored.get? hget) replacement)⟩
  detach c h := ⟨(confined_good j id).detach c h.1, h.2.cache j ((h.2.cached j).detachEntry id)⟩
  expire c h := ⟨(confined_good j id).expire c h.1,
    h.2.modifyNode j rfl ((h.2.cached j).expire (h.1.caches j).keyed id)⟩

theorem notify_capped (kind : ChangeKind) (id : Identity) :
    ⦃fun c => ⌜Good n c ∧ Capped n M c⌝⦄ notify m kind id
    ⦃post⟨fun _ c => ⌜Good n c ∧ Capped n M c⌝, fun _ c => ⌜Good n c ∧ Capped n M c⌝⟩⦄ :=
  notify_spec m kind id (fun _ h => ⟨h.1.of_frame rfl rfl le_rfl, h.2.of_frame rfl rfl⟩)
    fun j => onExternal_keeps m (confined_capped j id) kind

omit [Inhabited ω] in
theorem ownWrite_capped {β : Type} (i : Nat) (id : Identity) {call : ClusterOp ω β} {Q : β → Prop}
    (hcall : ⦃fun c => ⌜Good n c ∧ Capped n M c⌝⦄ call
      ⦃post⟨fun a c => ⌜(Good n c ∧ Capped n M c) ∧ Q a⌝, fun _ c => ⌜Good n c ∧ Capped n M c⌝⟩⦄) :
    ⦃fun c => ⌜Good n c ∧ Capped n M c⌝⦄ ownWrite i id call
    ⦃post⟨fun a c => ⌜(Good n c ∧ Capped n M c) ∧ Q a⌝,
      fun _ c => ⌜Good n c ∧ Capped n M c⌝⟩⦄ := by
  mvcgen [ownWrite, onNode, attempt_wp, hcall, lift]
  case vc1 =>
    obtain ⟨hg, h⟩ := ‹Good n _ ∧ Capped n M _›
    exact ⟨hg.ownWriteStep i id _, h.ownWriteStep i id _⟩
  case vc2 =>
    obtain ⟨⟨hg, h⟩, hq⟩ := ‹(Good n _ ∧ Capped n M _) ∧ _›
    exact ⟨⟨hg.ownWriteStep i id _, h.ownWriteStep i id _⟩, hq⟩
  all_goals
    obtain ⟨hg, h⟩ := ‹Good n _ ∧ Capped n M _›
    exact ⟨hg.ownWriteStep i id _, h.ownWriteStep i id _⟩

theorem storeSave_capped (id : Identity) (record : Record) (previous : Lineage)
    (hs : record.version.Stamped) (hr : record.version.RunsWithin (max M 1)) :
    ⦃fun c => ⌜Good n c ∧ Capped n M c⌝⦄ storeSave m id record previous
    ⦃post⟨fun v c => ⌜(Good n c ∧ Capped n M c) ∧ v = record.version⌝,
      fun _ c => ⌜Good n c ∧ Capped n M c⌝⟩⦄ := by
  have hnotify := notify_capped m (n := n) (M := M) .update id
  mvcgen [storeSave, onBackend, lift, hnotify]
  case vc2 v hsave _ s' h =>
    obtain ⟨-, -, hsaved⟩ := Backend.save_ok _ _ _ _ hsave
    rw [hsaved] at hsave
    exact ⟨h, (Except.ok.inj hsave).symm⟩
  all_goals
    obtain ⟨hg, h⟩ := ‹Good n _ ∧ Capped n M _›
    exact ⟨hg.save id hs previous, h.withBackend (h.stored.save id hr previous)⟩

theorem storeCreate_capped (id : Identity) (record : Record) (hs : record.version.Stamped)
    (hr : record.version.RunsWithin (max M 1)) :
    ⦃fun c => ⌜Good n c ∧ Capped n M c⌝⦄ storeCreate m id record
    ⦃post⟨fun v c => ⌜(Good n c ∧ Capped n M c) ∧ v = record.version⌝,
      fun _ c => ⌜Good n c ∧ Capped n M c⌝⟩⦄ := by
  have hnotify := notify_capped m (n := n) (M := M) .new id
  mvcgen [storeCreate, onBackend, lift, hnotify]
  case vc2 v hcreate _ s' h => exact ⟨h, (Backend.get?_createNew_self _ _ _ hcreate).2⟩
  all_goals
    obtain ⟨hg, h⟩ := ‹Good n _ ∧ Capped n M _›
    exact ⟨hg.createNew id hs, h.withBackend (h.stored.createNew id hr)⟩

theorem storeDelete_capped (id : Identity) :
    ⦃fun c => ⌜Good n c ∧ Capped n M c⌝⦄ storeDelete m id
    ⦃post⟨fun _ c => ⌜Good n c ∧ Capped n M c⌝, fun _ c => ⌜Good n c ∧ Capped n M c⌝⟩⦄ := by
  have hnotify := notify_capped m (n := n) (M := M) .delete id
  mvcgen [storeDelete, onBackend, lift, hnotify]
  all_goals
    obtain ⟨hg, h⟩ := ‹Good n _ ∧ Capped n M _›
    exact ⟨hg.withBackend (hg.stored.delete id), h.withBackend (h.stored.delete id)⟩

theorem writeBack_capped (i : Nat) (id : Identity) (k : Nat) (previous : Lineage) (c₀ : Cluster ω)
    (hgood : Good n c₀) (hcap : Capped n M c₀) (hi : i < n) (hprev : previous.Stamped)
    (hruns : previous.RunsWithin (max M 1)) :
    ⦃fun c => ⌜c = c₀⌝⦄ writeBack m i id k previous
    ⦃post⟨fun _ c => ⌜Good n c ∧ Capped n M c⌝, fun _ c => ⌜Good n c ∧ Capped n M c⌝⟩⦄ := by
  intro s hs
  simp only [SPred.down_pure] at hs
  subst hs
  let v := previous.append (s.node i).node false (s.node i).maxRun
  have hv : v.Stamped := Lineage.Stamped.append hprev.ascending hprev.valid (hgood.ids i hi) false _
  have hvruns : v.RunsWithin (max M 1) := hcap.append hi hruns false
  -- the record carries the lineage it is stamped with, whatever the clock
  have hown : ∀ (rec : Record) (clock : Instant), ⦃fun c => ⌜Good n c ∧ Capped n M c⌝⦄
      ownWrite i id (storeSave m id (rec.stamp id v clock id.owner) previous)
      ⦃post⟨fun a c => ⌜(Good n c ∧ Capped n M c) ∧ a = (rec.stamp id v clock id.owner).version⌝,
        fun _ c => ⌜Good n c ∧ Capped n M c⌝⟩⦄ :=
    fun rec clock => ownWrite_capped i id (storeSave_capped m id _ previous
      (by rw [Record.version_stamp rec id hv.valid _ _]; exact hv)
      (by rw [Record.version_stamp rec id hv.valid _ _]; exact hvruns))
  mvcgen [writeBack, encode, lift, hown]
  case vc1 | vc3 => exact ⟨hgood.modifyObj k _, hcap.modifyObj k _⟩
  case vc2 =>
    obtain ⟨⟨hg, h⟩, -⟩ := ‹(Good n _ ∧ Capped n M _) ∧ _›
    exact ⟨hg.modifyObj k _, h.modifyObj k _⟩

/-- **A write keeps the bound.** The entry is saved on the lineage it holds, which is within the
bound, and a stored save caches what it stored. -/
theorem write_capped (i : Nat) (id : Identity) (hi : i < n) :
    ⦃fun c => ⌜Good n c ∧ Capped n M c⌝⦄ write m i id
    ⦃post⟨fun _ c => ⌜Good n c ∧ Capped n M c⌝, fun _ c => ⌜Good n c ∧ Capped n M c⌝⟩⦄ := by
  intro s hs
  simp only [SPred.down_pure] at hs
  obtain ⟨hgood, hcap⟩ := hs
  cases hb : (s.node i).cache.beginFlush id with
  | none =>
    mvcgen [write, hb]
  | some p =>
    obtain ⟨cache, t⟩ := p
    obtain ⟨e, he, hdirty, rfl, rfl⟩ := Cache.beginFlush_spec hb
    have hkeyed := (hgood.caches i).keyed
    have hprev : e.version.Stamped := (hgood.caches i).version he
    have hruns : e.version.RunsWithin (max M 1) := (hcap.cached i).version hkeyed he
    have hgood₁ := hgood.cache i ((hgood.caches i).beginFlush hb).1
      ((hgood.objects i).beginFlush hkeyed hb)
    have hcap₁ := hcap.cache i ((hcap.cached i).beginFlush hkeyed hb)
    have hwb := triple_and (writeBack_spec m i id e.inst e.version _ hgood₁ hi hprev)
      (writeBack_capped m i id e.inst e.version _ hgood₁ hcap₁ hi hprev hruns)
    have hfan := fanOut_keeps (Φ := fun c : Cluster ω => Good n c ∧ Capped n M c)
      (E := fun _ c => Good n c ∧ Capped n M c) onRecords_capped i .update id
    mvcgen [write, hb, onNode, attempt_wp, hwb, lift, peek, hfan]
    case vc1 r s' h a hw jp ha =>
      -- the entry caches the stored lineage, the writer's tag on the one it held
      obtain ⟨⟨hc, hsaved⟩, -, hcapc⟩ := h
      refine ⟨(saved_finish hgood hi he hdirty hc hsaved).1,
        hcapc.cache i ((hcapc.cached i).finishFlush (hc.caches i).keyed id _ fun w hw => ?_)⟩
      cases hw
      rw [hsaved.version, node_writing (hgood.size ▸ hi)]
      exact hcap.append hi hruns false
    case vc6 e s' h f hw =>
      obtain ⟨⟨hc, huntold, hblocked⟩, -, hcapc⟩ := h
      exact ⟨(refused_finish m hgood hi he hdirty hc huntold hblocked e).1,
        hcapc.cache i ((hcapc.cached i).finishFlush (hc.caches i).keyed id _ fun w hw => by cases hw)⟩
    -- a finished write answers whether the store took it
    case vc2 r s' h a hw jp ha =>
      rw [Cache.finishFlush_written] at hw
      cases hw
      exact absurd rfl ha
    case vc3 r s' h f hw | vc4 e s' h a hw jp ha | vc5 e s' h a hw jp ha =>
      simp [Except.map] at hw

theorem create_capped (i : Nat) (id : Identity) (k : Nat) (c₀ : Cluster ω) (hgood : Good n c₀)
    (hcap : Capped n M c₀) (hi : i < n) :
    ⦃fun c => ⌜c = c₀⌝⦄ create m i id k
    ⦃post⟨fun v c => ⌜(Good n c ∧ Capped n M c) ∧ v.RunsWithin (max M 1)⌝,
      fun _ c => ⌜Good n c ∧ Capped n M c⌝⟩⦄ := by
  intro s hs
  simp only [SPred.down_pure] at hs
  subst hs
  let v := Lineage.empty.append (s.node i).node false (s.node i).maxRun
  have hv : v.Stamped := Lineage.stamped_first (hgood.ids i hi) false _
  have hvruns : v.RunsWithin (max M 1) := hcap.append hi (Lineage.runsWithin_nil _) false
  have hown : ∀ (rec : Record) (clock : Instant), ⦃fun c => ⌜Good n c ∧ Capped n M c⌝⦄
      ownWrite i id (storeCreate m id (rec.stamp id v clock id.owner))
      ⦃post⟨fun a c => ⌜(Good n c ∧ Capped n M c) ∧ a = (rec.stamp id v clock id.owner).version⌝,
        fun _ c => ⌜Good n c ∧ Capped n M c⌝⟩⦄ :=
    fun rec clock => ownWrite_capped i id (storeCreate_capped m id _
      (by rw [Record.version_stamp rec id hv.valid _ _]; exact hv)
      (by rw [Record.version_stamp rec id hv.valid _ _]; exact hvruns))
  mvcgen [create, encode, lift, hown]
  case vc1 | vc3 => exact ⟨hgood.modifyObj k _, hcap.modifyObj k _⟩
  case vc2 _ _ h _ =>
    obtain ⟨⟨hg, h⟩, hr⟩ := h
    refine ⟨⟨hg.modifyObj k _, h.modifyObj k _⟩, ?_⟩
    rw [hr, Record.version_stamp _ id hv.valid _ _]
    exact hvruns

omit [Inhabited ω] in
theorem onCache_capped {P : Cluster ω → Prop} (j : Nat)
    (f : Cache → (Nat → Bool) → Cache × List Nat)
    (hf : ∀ c, P c → Good n c ∧ Capped n M c ∧ (f (c.node j).cache (c.heldBeyond j)).1.Stamped ∧
      (f (c.node j).cache (c.heldBeyond j)).1.Within c.objects.size ∧
      (f (c.node j).cache (c.heldBeyond j)).1.OnVersions fun _ v => v.RunsWithin (max M 1)) :
    ⦃fun c => ⌜P c⌝⦄ onCache m j f
    ⦃post⟨fun _ c => ⌜Good n c ∧ Capped n M c⌝, fun _ c => ⌜Good n c ∧ Capped n M c⌝⟩⦄ := by
  have htell := fun insts => tell_keeps m (onRecords_capped (n := n) (M := M)) insts
  mvcgen [onCache, htell]
  obtain ⟨hg, h, hs, hw, hv⟩ := hf _ ‹_›
  exact ⟨hg.cache j hs hw, h.cache j hv⟩

omit [Inhabited ω] in
theorem fetch_capped (j : Nat) (id : Identity) :
    ⦃fun c => ⌜Good n c ∧ Capped n M c⌝⦄ fetch m j id
    ⦃post⟨fun _ c => ⌜Good n c ∧ Capped n M c⌝, fun _ c => ⌜Good n c ∧ Capped n M c⌝⟩⦄ := by
  have hload := load_spec m j id (onRecords_capped (n := n) (M := M))
  have hdiscard := onCache_capped m (P := fun c => Good n c ∧ Capped n M c) j
    (fun cache held => cache.discardExpired id held) fun c ⟨hg, h⟩ =>
      ⟨hg, h, (hg.caches j).discardExpired id _, (hg.objects j).discardExpired id _,
        (h.cached j).discardExpired id _⟩
  have hinstall := fun k v now => onCache_capped m (P := fun c => (Good n c ∧ Capped n M c) ∧
      ∀ p ∈ some (k, v), 0 < p.1 ∧ p.1 ≤ c.objects.size ∧
        ∃ rec, c.backend.get? id = some rec ∧ rec.version = p.2)
    j (fun cache held => cache.install id k v now held) fun c ⟨⟨hg, h⟩, hp⟩ => by
      obtain ⟨hpos, hk, rec, hrec, hv⟩ := hp (k, v) rfl
      have hv : rec.version = v := hv
      have hkeyed := (hg.caches j).keyed
      exact ⟨hg, h, (hg.caches j).install id k (hv ▸ hg.stored.get? hrec) now _,
        (hg.objects j).install hkeyed id ⟨hpos, hk⟩ v now _,
        (h.cached j).install hkeyed id k (hv ▸ h.stored.get? hrec) now _⟩
  mvcgen [fetch, lift, onNode, hload, hdiscard, hinstall]
  case isFalse.h_1 =>
    -- a hit only touches the entry
    obtain ⟨hg, h⟩ := ‹Good n _ ∧ Capped n M _›
    have hhit := ‹Cache.hit? _ _ _ = some _›
    have hkeyed := (hg.caches j).keyed
    exact ⟨hg.cache j ((hg.caches j).hit? hhit) ((hg.objects j).hit? hkeyed hhit),
      h.cache j ((h.cached j).hit? hkeyed hhit)⟩
  case isFalse.h_2.pre =>
    obtain ⟨hg, h⟩ := ‹Good n _ ∧ Capped n M _›
    exact ⟨hg.modifyNode (hg.caches j).startLoad ((hg.objects j).of_entries rfl) rfl,
      h.modifyNode j rfl (h.cached j).startLoad⟩
  case success.h_1.pre => exact (‹(Good n _ ∧ Capped n M _) ∧ _›).1

theorem markUpdating_capped (i : Nat) (id : Identity) (k : Nat) (hi : i < n) :
    ⦃fun c => ⌜(Good n c ∧ Capped n M c) ∧ 0 < k ∧ k ≤ c.objects.size⌝⦄ markUpdating m i id k
    ⦃post⟨fun _ c => ⌜Good n c ∧ Capped n M c⌝, fun _ c => ⌜Good n c ∧ Capped n M c⌝⟩⦄ := by
  intro s hs
  simp only [SPred.down_pure] at hs
  obtain ⟨⟨hgood, hcap⟩, hk⟩ := hs
  have hkeyed := (hgood.caches i).keyed
  cases hm : (s.node i).cache.markExisting id k s.now with
  | some r =>
    mvcgen [markUpdating, onNode, hm]
    rename_i hr _
    rw [hr] at hm
    exact ⟨hgood.cache i ((hgood.caches i).markExisting hm) ((hgood.objects i).markExisting hkeyed hm),
      hcap.cache i ((hcap.cached i).markExisting hkeyed hm)⟩
  | none =>
    have hnone := Cache.markExisting_eq_none hm
    have hcreate := triple_and (create_spec m i id k s hgood hi)
      (create_capped m i id k s hgood hcap hi)
    have hinsert := fun stored now => onCache_capped m (n := n) (M := M)
      (P := fun c => (Good n c ∧ stored.Stamped ∧ (c.node i).cache = (s.node i).cache ∧
          s.objects.size ≤ c.objects.size) ∧ (Good n c ∧ Capped n M c) ∧
        stored.RunsWithin (max M 1))
      i (fun cache held => cache.insert id k stored .clean now held) fun c hc' => by
        obtain ⟨⟨-, hv, hc, hsz⟩, ⟨hg, h⟩, hruns⟩ := hc'
        rw [hc]
        exact ⟨hg, h, (hgood.caches i).insert hnone k hv .clean now _,
          ((hgood.objects i).mono hsz).insert hkeyed hnone ⟨hk.1, hk.2.trans hsz⟩ _ .clean now _,
          (hcap.cached i).insert hkeyed hnone k hruns .clean now _⟩
    mvcgen [markUpdating, hm, hcreate, hinsert]
    exact fun _ hg h => ⟨hg, h⟩

theorem update_capped (i k : Nat) (hi : i < n) :
    ⦃fun c => ⌜(Good n c ∧ Capped n M c) ∧ 0 < k ∧ k ≤ c.objects.size⌝⦄ update m i k
    ⦃post⟨fun _ c => ⌜Good n c ∧ Capped n M c⌝, fun _ c => ⌜Good n c ∧ Capped n M c⌝⟩⦄ := by
  have hmark := fun id => markUpdating_capped m (n := n) (M := M) i id k hi
  have hfan := fun id => fanOut_keeps (Φ := fun c : Cluster ω => Good n c ∧ Capped n M c)
    (E := fun _ c => Good n c ∧ Capped n M c) onRecords_capped i .new id
  have hwrite := fun id => discard_keeps (write_capped m (n := n) (M := M) i id hi)
  mvcgen [update, identityFor, lift, hmark, hfan, hwrite, peek, onNode]
  case vc3 =>
    -- a queued write only changes the node's flusher
    obtain ⟨hg, h⟩ := ‹Good n _ ∧ Capped n M _›
    exact ⟨hg.node rfl rfl, h.keepCache i rfl rfl⟩
  case vc6 => exact (‹(Good n _ ∧ Capped n M _) ∧ _›).1

theorem persist_capped (i k : Nat) (hi : i < n) :
    ⦃fun c => ⌜(Good n c ∧ Capped n M c) ∧ 0 < k ∧ k ≤ c.objects.size⌝⦄ persist m i k
    ⦃post⟨fun _ c => ⌜Good n c ∧ Capped n M c⌝, fun _ c => ⌜Good n c ∧ Capped n M c⌝⟩⦄ := by
  have hmark := fun id => markUpdating_capped m (n := n) (M := M) i id k hi
  have hfan := fun id => fanOut_keeps (Φ := fun c : Cluster ω => Good n c ∧ Capped n M c)
    (E := fun _ c => Good n c ∧ Capped n M c) onRecords_capped i .new id
  have hwrite := fun id => discard_keeps (write_capped m (n := n) (M := M) i id hi)
  mvcgen [persist, identityFor, lift, hmark, hfan, hwrite, peek, cancelPending, onNode]
  case vc3 =>
    -- a cancelled write only changes the node's flusher
    obtain ⟨hg, h⟩ := ‹Good n _ ∧ Capped n M _›
    exact ⟨hg.node rfl rfl, h.keepCache i rfl rfl⟩
  case vc4 => exact (‹(Good n _ ∧ Capped n M _) ∧ _›).1

theorem flush_capped (i k : Nat) (hi : i < n) :
    ⦃fun c => ⌜Good n c ∧ Capped n M c⌝⦄ flush m i k
    ⦃post⟨fun _ c => ⌜Good n c ∧ Capped n M c⌝, fun _ c => ⌜Good n c ∧ Capped n M c⌝⟩⦄ := by
  have hwrite := fun id => write_capped m (n := n) (M := M) i id hi
  mvcgen [flush, identityFor, lift, hwrite, cancelPending, onNode]
  obtain ⟨hg, h⟩ := ‹Good n _ ∧ Capped n M _›
  exact ⟨hg.node rfl rfl, h.keepCache i rfl rfl⟩

theorem flushHost_capped (i : Nat) (hi : i < n) :
    (flushHost m i).Keeps fun c => Good n c ∧ Capped n M c :=
  flushHost_keeps_of m i (fun _ _ h => ⟨h.1.node rfl rfl, h.2.keepCache i rfl rfl⟩)
    fun id => write_capped m i id hi

theorem remove_capped (i : Nat) (id : Identity) :
    ⦃fun c => ⌜Good n c ∧ Capped n M c⌝⦄ remove m i id
    ⦃post⟨fun _ c => ⌜Good n c ∧ Capped n M c⌝, fun _ c => ⌜Good n c ∧ Capped n M c⌝⟩⦄ := by
  have hdetach := detach_keeps (confined_capped (n := n) (M := M) (ω := ω) i id)
  have htell := fun insts => tell_keeps m (onRecords_capped (n := n) (M := M)) insts
  have hdelete := storeDelete_capped m (n := n) (M := M) id
  have hfan := fanOut_keeps (Φ := fun c : Cluster ω => Good n c ∧ Capped n M c)
    (E := fun _ c => Good n c ∧ Capped n M c) onRecords_capped i .delete id
  mvcgen [remove, lift, hdetach, htell, cancelPending, onNode, ownWrite, attempt_wp, hdelete, hfan]
  case vc3 =>
    -- dropping the queued write and starting the store call touch no lineage
    obtain ⟨hg, h⟩ := ‹Good n _ ∧ Capped n M _›
    exact ⟨(hg.node rfl rfl).ownWriteStep i id true, (h.keepCache i rfl rfl).ownWriteStep i id true⟩
  case vc4 | vc5 | vc6 =>
    obtain ⟨hg, h⟩ := ‹Good n _ ∧ Capped n M _›
    exact ⟨hg.ownWriteStep i id false, h.ownWriteStep i id false⟩

omit [Inhabited ω] in
theorem discardEntry_capped (i : Nat) (id : Identity) :
    ⦃fun c => ⌜Good n c ∧ Capped n M c⌝⦄ (discardEntry i id : ClusterOp ω Bool)
    ⦃post⟨fun _ c => ⌜Good n c ∧ Capped n M c⌝, fun _ c => ⌜Good n c ∧ Capped n M c⌝⟩⦄ := by
  have hdetach := detach_keeps (confined_capped (n := n) (M := M) (ω := ω) i id)
  mvcgen [discardEntry, hdetach, cancelPending, onNode]
  obtain ⟨hg, h⟩ := ‹Good n _ ∧ Capped n M _›
  exact ⟨hg.node rfl rfl, h.keepCache i rfl rfl⟩

omit [Inhabited ω] in
theorem addListener_capped (i : Nat) (name : String) :
    ⦃fun c => ⌜Good n c ∧ Capped n M c⌝⦄ (addListener i name : ClusterOp ω Nat)
    ⦃post⟨fun _ c => ⌜Good n c ∧ Capped n M c⌝, fun _ c => ⌜Good n c ∧ Capped n M c⌝⟩⦄ := by
  mvcgen [addListener, onNode]
  -- listeners and the subscription flag hold no lineage; a subscription only adds a watcher
  case vc1 | vc2 | vc4 =>
    obtain ⟨hg, h⟩ := ‹Good n _ ∧ Capped n M _›
    exact ⟨hg.node rfl rfl, h.keepCache i rfl rfl⟩
  case vc3 =>
    obtain ⟨hg, h⟩ := ‹Good n _ ∧ Capped n M _›
    exact ⟨((hg.node rfl rfl).node rfl rfl).withBackend hg.stored,
      ((h.keepCache i rfl rfl).keepCache i rfl rfl).withBackend h.stored⟩

omit [Inhabited ω] in
theorem evictIdle_capped (i : Nat) :
    ⦃fun c => ⌜Good n c ∧ Capped n M c⌝⦄ evictIdle m i
    ⦃post⟨fun _ c => ⌜Good n c ∧ Capped n M c⌝, fun _ c => ⌜Good n c ∧ Capped n M c⌝⟩⦄ := by
  have htell := fun insts => tell_keeps m (onRecords_capped (n := n) (M := M)) insts
  mvcgen [evictIdle, htell]
  obtain ⟨hg, h⟩ := ‹Good n _ ∧ Capped n M _›
  have hk := (hg.caches i).keyed
  exact ⟨hg.cache i ((hg.caches i).sweep _ _) ((hg.objects i).sweep hk _ _),
    h.cache i ((h.cached i).sweep hk _ _)⟩

omit [Inhabited ω] in
theorem capped_of_triple {β : Type} {op : ClusterOp ω β} {P : Cluster ω → Prop}
    (h : ⦃fun c => ⌜P c⌝⦄ op
      ⦃post⟨fun _ c => ⌜Good n c ∧ Capped n M c⌝, fun _ c => ⌜Good n c ∧ Capped n M c⌝⟩⦄)
    {c : Cluster ω} (hc : P c) : Good n (op.run.run c).2 ∧ Capped n M (op.run.run c).2 :=
  holds_of_triple h (fun _ _ h => h) (fun _ _ h => h) hc

namespace Action

theorem capped (a : Action ω) {c : Cluster ω} (hc : Good n c ∧ Capped n M c)
    (ha : a.Allowed n c) :
    Good n ((a.run m).run.run c).2 ∧ Capped n M ((a.run m).run.run c).2 := by
  cases a with
  | get j id => exact capped_of_triple (discard_keeps (fetch_capped m j id)) hc
  | update j k => exact capped_of_triple (update_capped m j k ha.1) ⟨hc, ha.2⟩
  | persist j k => exact capped_of_triple (discard_keeps (persist_capped m j k ha.1)) ⟨hc, ha.2⟩
  | flush j k => exact capped_of_triple (discard_keeps (flush_capped m j k ha)) hc
  | flushAll j => exact capped_of_triple (flushAll_keeps m (flushHost_capped m j ha)) hc
  | close j => exact capped_of_triple (close_keeps m (flushHost_capped m j ha)) hc
  | settle j => exact capped_of_triple (settle_keeps m (flushHost_capped m j ha)) hc
  | remove j id => exact capped_of_triple (discard_keeps (remove_capped m j id)) hc
  | discard j id => exact capped_of_triple (discard_keeps (discardEntry_capped j id)) hc
  | external j kind id => exact capped_of_triple (onExternal_keeps m (confined_capped j id) kind) hc
  | listen j name => exact capped_of_triple (discard_keeps (addListener_capped j name)) hc
  | evict j => exact capped_of_triple (discard_keeps (evictIdle_capped m j)) hc
  | sleep ms =>
    have hk : ∀ j ∈ List.range c.nodes.length,
        (flushHost m j).Keeps fun c => Good n c ∧ Capped n M c :=
      fun j hj => flushHost_capped m j (hc.1.size ▸ List.mem_range.mp hj)
    obtain ⟨hg, h⟩ := sleepAll_keeps m ms _ hk hc
    exact ⟨hg.of_frame rfl rfl le_rfl, h.of_frame rfl rfl⟩
  | make o =>
    show Good n (c.make o).1 ∧ Capped n M (c.make o).1
    exact ⟨hc.1.of_frame rfl rfl (by simp [Cluster.make]), hc.2.of_frame rfl rfl⟩
  | edit k g => exact ⟨hc.1.modifyObj k g, hc.2.modifyObj k g⟩
  | hold h k => exact ⟨hc.1.of_frame rfl rfl le_rfl, hc.2.of_frame rfl rfl⟩
  | drop h => exact ⟨hc.1.of_frame rfl rfl le_rfl, hc.2.of_frame rfl rfl⟩
  | failNext count => exact ⟨hc.1.of_frame rfl rfl le_rfl, hc.2.of_frame rfl rfl⟩

end Action

/-- The run lemma of the bound. -/
theorem Reaches.capped {c₀ c : Cluster ω} (h₀ : Good n c₀ ∧ Capped n M c₀) (h : Reaches m n c₀ c) :
    Good n c ∧ Capped n M c := by
  induction h with
  | start => exact h₀
  | step a _ ha ih => exact a.capped m ih ha

omit [Inhabited ω] in
theorem Fresh.capped {c : Cluster ω} (h : Fresh n c) (hmax : ∀ j < n, (c.node j).maxRun = M)
    (hstored : c.backend.RunsWithin (max M 1)) : Capped n M c where
  maxRun := hmax
  stored := hstored
  cached j := .nil (h.empty j)

/-- **No stored lineage breaks the run cap.** Start from a fresh cluster whose nodes all write
under cap `M` and whose store holds lineages within `max M 1`. Along every run of allowed
actions, through creations, write-through and write-behind saves, reloads after other writers'
changes, flusher cycles and injected failures, every lineage the store holds passes the soak's
cap check at `max M 1`. -/
theorem stored_within_cap {c₀ c : Cluster ω} (hfresh : Fresh n c₀)
    (hmax : ∀ j < n, (c₀.node j).maxRun = M) (hstored : c₀.backend.RunsWithin (max M 1))
    (hc : Reaches m n c₀ c) {id : Identity} {r : Record} (hr : c.backend.get? id = some r) :
    Soak.exceedsCap r.version (max M 1) = false := by
  obtain ⟨-, h⟩ := hc.capped m ⟨hfresh.good, hfresh.capped hmax hstored⟩
  exact (Soak.exceedsCap_eq_false_iff _ _).mpr (h.stored.get? hr)

end Cluster

end Stowage
