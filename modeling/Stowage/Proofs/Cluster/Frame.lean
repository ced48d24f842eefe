import Mathlib
import Stowage.Proofs.Cluster.Runs
import Stowage.Proofs.Cache.Versions
/-!
A write of an identity changes nothing but that identity.

A node's write of `id` rewrites its own entry of `id`, stores a record of `id`, and sets off the
subscribers' reactions to a change of `id`, each of which refreshes, detaches or expires that
subscriber's entry of `id`. So every record and every cache entry of another identity is as it
was, no cache gains an entry of `id`, and every node keeps its kind, its node id and its cap on
runs of its tags.
-/
open Std.Do

set_option mvcgen.warning false

namespace Stowage

open Stowage.Version

namespace Backend

variable (b : Backend) (id : Identity) (r : Record) {x : Identity}

theorem get?_place_ne (rs : List (Identity × Record)) (hx : x ≠ id) :
    (place id r rs).lookup x = rs.lookup x := by
  rw [lookup_place, if_neg hx]

theorem get?_save_ne (previous : Lineage) (hx : x ≠ id) :
    (b.save id r previous).1.get? x = b.get? x := by
  unfold get?
  rcases records_save b id r previous with h | h <;> rw [h]
  exact get?_place_ne id r _ hx

theorem get?_createNew_ne (hx : x ≠ id) : (b.createNew id r).1.get? x = b.get? x := by
  unfold get?
  rcases records_createNew b id r with h | h <;> rw [h]
  exact get?_place_ne id r _ hx

theorem records_createNew_of_error {f : Fault} (h : (b.createNew id r).2 = .error f) :
    (b.createNew id r).1.records = b.records := by
  by_cases hf : b.failures = 0
  · cases hg : b.get? id <;> simp [createNew, check_of_ready hf, hg] at h ⊢
  · simp [createNew, check_of_failing hf]

theorem get?_createNew_self {v : Lineage} (h : (b.createNew id r).2 = .ok v) :
    (b.createNew id r).1.get? id = some r ∧ v = r.version := by
  obtain ⟨-, -, hnew⟩ := createNew_ok b id r h
  rw [hnew] at h ⊢
  exact ⟨by simp [get?, lookup_place], (Except.ok.inj h).symm⟩

theorem lookup_filter_ne {β : Type} (rs : List (Identity × β)) (hx : x ≠ id) :
    (rs.filter fun p => !(p.1 == id)).lookup x = rs.lookup x := by
  induction rs with
  | nil => rfl
  | cons q rest ih =>
    obtain ⟨k, s⟩ := q
    by_cases hk : k = id
    · subst hk
      have hxk : x ≠ k := hx
      simp [lookup_cons_ite, hxk, ih]
    · have hb : (k == id) = false := by simpa using hk
      simp only [List.filter_cons, hb, Bool.not_false, ↓reduceIte, lookup_cons_ite, ih]

theorem get?_delete (x : Identity) :
    (b.delete id).1.get? x = b.get? x ∨ ((b.delete id).1.get? x = none ∧ x = id) := by
  unfold get?
  rcases records_delete b id with h | h <;> rw [h]
  · exact .inl rfl
  · by_cases hx : x = id
    · subst hx
      refine .inr ⟨List.lookup_eq_none_iff.mpr fun p hp => ?_, rfl⟩
      rw [bne_comm]
      exact (List.mem_filter.mp hp).2
    · exact .inl (lookup_filter_ne id _ hx)

end Backend

namespace Cluster

variable {ω : Type}

/-- Cluster `c` differs from `c₀` at most at identity `id`: every cache differs at most in its
entry of `id`, every node keeps its kind, node id and cap, and every record of another identity
is as it was. -/
structure OnlyAt (id : Identity) (c₀ c : Cluster ω) : Prop where
  caches : ∀ j, Cache.OnlyAt id (c₀.node j).cache (c.node j).cache
  kind : ∀ j, (c.node j).kind = (c₀.node j).kind
  node : ∀ j, (c.node j).node = (c₀.node j).node
  maxRun : ∀ j, (c.node j).maxRun = (c₀.node j).maxRun
  records : ∀ x, x ≠ id → c.backend.get? x = c₀.backend.get? x

section OnlyAt

variable {id : Identity} {c₀ c c' : Cluster ω}

theorem OnlyAt.refl (hk : ∀ j, (c.node j).cache.Keyed) : OnlyAt id c c :=
  ⟨fun j => .refl (hk j), fun _ => rfl, fun _ => rfl, fun _ => rfl, fun _ _ => rfl⟩

theorem OnlyAt.frame (h : OnlyAt id c₀ c) (hr : ∀ x, x ≠ id → c'.backend.get? x = c.backend.get? x)
    (hn : c'.nodes = c.nodes) : OnlyAt id c₀ c' := by
  have hnode : ∀ j, c'.node j = c.node j := fun j => by unfold Cluster.node; rw [hn]
  exact ⟨fun j => hnode j ▸ h.caches j, fun j => hnode j ▸ h.kind j, fun j => hnode j ▸ h.node j,
    fun j => hnode j ▸ h.maxRun j, fun x hx => (hr x hx).trans (h.records x hx)⟩

theorem OnlyAt.of_records (h : OnlyAt id c₀ c) (hr : c'.backend.records = c.backend.records)
    (hn : c'.nodes = c.nodes) : OnlyAt id c₀ c' :=
  h.frame (fun x _ => by unfold Backend.get?; rw [hr]) hn

theorem OnlyAt.modifyNode (h : OnlyAt id c₀ c) (j : Nat) {f : Repository → Repository}
    (hcache : Cache.OnlyAt id (c.node j).cache (f (c.node j)).cache)
    (hkind : (f (c.node j)).kind = (c.node j).kind) (hnode : (f (c.node j)).node = (c.node j).node)
    (hmax : (f (c.node j)).maxRun = (c.node j).maxRun) : OnlyAt id c₀ (c.modifyNode j f) := by
  -- every field is read through `node_modifyNode`: the changed node, or one as it was
  refine ⟨fun k => ?_, fun k => ?_, fun k => ?_, fun k => ?_, h.records⟩ <;>
    rw [node_modifyNode] <;> split
  all_goals first
    | (rename_i hk; obtain ⟨rfl, -⟩ := hk)
    | skip
  · exact (h.caches k).trans hcache
  · exact h.caches k
  · exact hkind.trans (h.kind k)
  · exact h.kind k
  · exact hnode.trans (h.node k)
  · exact h.node k
  · exact hmax.trans (h.maxRun k)
  · exact h.maxRun k

theorem OnlyAt.cache (h : OnlyAt id c₀ c) (j : Nat) {cache : Cache}
    (hcache : Cache.OnlyAt id (c.node j).cache cache) :
    OnlyAt id c₀ (c.modifyNode j fun r => { r with cache }) :=
  h.modifyNode j hcache rfl rfl rfl

theorem OnlyAt.keepCache (h : OnlyAt id c₀ c) (j : Nat) {f : Repository → Repository}
    (hcache : (f (c.node j)).cache = (c.node j).cache)
    (hkind : (f (c.node j)).kind = (c.node j).kind) (hnode : (f (c.node j)).node = (c.node j).node)
    (hmax : (f (c.node j)).maxRun = (c.node j).maxRun) : OnlyAt id c₀ (c.modifyNode j f) :=
  h.modifyNode j (by rw [hcache]; exact .refl (h.caches j).keyed) hkind hnode hmax

theorem onRecords_onlyAt (id : Identity) (c₀ : Cluster ω) : OnRecords (OnlyAt id c₀) :=
  fun _ _ hr _ hn _ h => h.of_records hr hn

theorem confined_onlyAt (j : Nat) (id : Identity) (c₀ : Cluster ω) :
    Confined j id (OnlyAt id c₀) where
  frame := onRecords_onlyAt id c₀
  refresh _ version replacement _ _ h :=
    h.modifyNode j (Cache.onlyAt_refresh (h.caches j).keyed id version replacement) rfl rfl rfl
  detach _ h := h.cache j (Cache.onlyAt_detachEntry (h.caches j).keyed id)
  expire _ h := h.modifyNode j (Cache.onlyAt_expire (h.caches j).keyed id) rfl rfl rfl

theorem OnlyAt.save (h : OnlyAt id c₀ c) (record : Record) (previous : Lineage) :
    OnlyAt id c₀ { c with backend := (c.backend.save id record previous).1 } :=
  h.frame (fun _ hx => Backend.get?_save_ne _ id _ _ hx) rfl

end OnlyAt

theorem OnlyAt.modifyObj {id : Identity} {c₀ c : Cluster ω} (h : OnlyAt id c₀ c) (k : Nat)
    (g : ω → ω) : OnlyAt id c₀ (c.modifyObj k g) :=
  h.of_records rfl rfl

theorem ownWriteStep_onlyAt {id : Identity} {c₀ c : Cluster ω} (h : OnlyAt id c₀ c) (j : Nat)
    (id' : Identity) (starting : Bool) : OnlyAt id c₀ (c.modifyNode j fun r => r.ownWriteStep id' starting) :=
  h.keepCache j (Repository.cache_ownWriteStep _ _ _) (Repository.kind_ownWriteStep _ _ _)
    (Repository.node_ownWriteStep _ _ _) (Repository.maxRun_ownWriteStep _ _ _)

variable [Inhabited ω] (m : ObjectModel ω)

theorem writeBack_onlyAt (j : Nat) (id : Identity) (k : Nat) (previous : Lineage) (c₀ : Cluster ω) :
    ⦃fun c => ⌜OnlyAt id c₀ c⌝⦄ writeBack m j id k previous
    ⦃post⟨fun _ c => ⌜OnlyAt id c₀ c⌝, fun _ c => ⌜OnlyAt id c₀ c⌝⟩⦄ := by
  have hnotify := notify_spec m (Φ := OnlyAt id c₀) (E := fun _ c => OnlyAt id c₀ c) .update id
    (fun _ h => h.of_records rfl rfl) fun j' => onExternal_keeps m (confined_onlyAt j' id c₀) .update
  mvcgen [writeBack, encode, ownWrite, storeSave, onBackend, lift, onNode, attempt_wp, hnotify]
  -- the steps: the object changes, the writer counts its own store call in and out, and the
  -- store saves `id`
  all_goals have h := ‹OnlyAt id c₀ _›
  case vc1.h_1.h_1.pre => exact (ownWriteStep_onlyAt (h.modifyObj k _) j id true).save _ _
  case vc2.h_1.h_1.post.success => exact (ownWriteStep_onlyAt h j id false).modifyObj k _
  case vc3.h_1.h_1.post.except.handle => exact ownWriteStep_onlyAt h j id false
  case vc4.h_1.h_2 =>
    exact ownWriteStep_onlyAt ((ownWriteStep_onlyAt (h.modifyObj k _) j id true).save _ _) j id false
  case vc5.h_2 => exact h.modifyObj k _

/-- **A write of `id` changes nothing but `id`.** -/
theorem write_onlyAt (j : Nat) (id : Identity) (c₀ : Cluster ω) :
    ⦃fun c => ⌜OnlyAt id c₀ c⌝⦄ write m j id
    ⦃post⟨fun _ c => ⌜OnlyAt id c₀ c⌝, fun _ c => ⌜OnlyAt id c₀ c⌝⟩⦄ := by
  have hwb := fun k previous => writeBack_onlyAt m j id k previous c₀
  have hfan := fun v => fanOut_keeps (E := fun _ c => OnlyAt id c₀ c) (onRecords_onlyAt id c₀)
    j .update id v
  mvcgen [write, onNode, attempt_wp, hwb, lift, peek, hfan]
  -- the writer's entry of `id` is marked as being written, and finished after the store call
  case vc2.h_2.pre =>
    rename_i s h _ _ hb _
    exact h.cache j (Cache.onlyAt_beginFlush (h.caches j).keyed hb)
  all_goals
    have h := ‹OnlyAt id c₀ _›
    exact h.cache j (Cache.onlyAt_finishFlush (h.caches j).keyed id _ _)

end Cluster

end Stowage
