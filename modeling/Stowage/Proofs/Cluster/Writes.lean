import Mathlib
import Stowage.Proofs.Cluster.Invariant
/-!
What a write of a cached entry does to the cluster.

A node writes its entry of an identity back only when the entry is dirty, and saves it based
on the lineage the entry holds. The store takes the save only when what it holds is the same
as that base: it then holds the base with the node's tag on top, which compares higher than
what it replaced, counts one write, tells the subscribers, and the entry is clean on the stored
lineage. Otherwise the save is refused, the object did not encode or a failure was injected:
then nothing is stored or counted, no one is told, and the writer's entry is as it was, still
dirty. Either way the invariant of the cluster holds after the write.
-/
open Std.Do

set_option mvcgen.warning false

namespace Stowage

open Stowage.Version

namespace Cluster

variable {ω : Type}

section Good

variable {n : Nat} {c : Cluster ω}

theorem Good.modifyObj [Inhabited ω] (h : Good n c) (k : Nat) (g : ω → ω) : Good n (c.modifyObj k g) :=
  h.of_frame rfl rfl (size_modifyObj c k g).ge

theorem Good.ownWriteStep (h : Good n c) (i : Nat) (id : Identity) (starting : Bool) :
    Good n (c.modifyNode i fun r => r.ownWriteStep id starting) :=
  h.node (Repository.cache_ownWriteStep _ id starting) (Repository.node_ownWriteStep _ id starting)

theorem Good.save (h : Good n c) (id : Identity) {record : Record} (hr : record.version.Stamped)
    (previous : Lineage) : Good n { c with backend := (c.backend.save id record previous).1 } :=
  h.withBackend (h.stored.save id hr previous)

end Good

/-- The end of a save of node `i` that went through, from cluster `c₀`: the store held a lineage
the same as the base, and now holds the base with the node's tag on top, counted as one write;
node `i`'s cache is as it was. -/
structure SavedFrom (i : Nat) (id : Identity) (previous : Lineage) (c₀ c : Cluster ω)
    (v : Lineage) : Prop where
  same : (Backend.current c₀.backend id).compare previous = .same
  version : v = previous.append (c₀.node i).node false (c₀.node i).maxRun
  stored : ∃ r, c.backend.get? id = some r ∧ r.version = v
  writes : c.backend.writes = c₀.backend.writes + 1
  cache : (c.node i).cache = (c₀.node i).cache

/-- The end of a save of node `i` that failed, from cluster `c₀`: nothing was stored or counted,
no other node heard of it, nothing was delivered, and node `i`'s cache is as it was. -/
structure Untold (i : Nat) (c₀ c : Cluster ω) : Prop where
  records : c.backend.records = c₀.backend.records
  writes : c.backend.writes = c₀.backend.writes
  others : ∀ j, j ≠ i → c.node j = c₀.node j
  cache : (c.node i).cache = (c₀.node i).cache
  deliveries : c.deliveries = c₀.deliveries

theorem cache_ownWrite_round (c : Cluster ω) {i : Nat} {id : Identity} (hi : i < c.nodes.length) :
    (((c.modifyNode i fun r => r.ownWriteStep id true).modifyNode i
      fun r => r.ownWriteStep id false).node i).cache = (c.node i).cache := by
  rw [node_modifyNode_self _ i _ (by simpa using hi), node_modifyNode_self _ i _ hi]
  simp

variable [Inhabited ω] (m : ObjectModel ω) {n : Nat}

/-- What refuses a save of object `k` based on `previous`: the object does not encode, a failure
is injected, or the store holds a lineage that is not the same as the base. -/
def Blocked (id : Identity) (k : Nat) (previous : Lineage) (c : Cluster ω) : Prop :=
  (∃ f, m.encode ((c.modifyObj k m.beforePersist).obj k) = .error f) ∨ c.backend.failures ≠ 0 ∨
    (Backend.current c.backend id).compare previous ≠ .same

theorem writeBack_spec (i : Nat) (id : Identity) (k : Nat) (previous : Lineage) (c₀ : Cluster ω)
    (hgood : Good n c₀) (hi : i < n) (hprev : previous.Stamped) :
    ⦃fun c => ⌜c = c₀⌝⦄ writeBack m i id k previous
    ⦃post⟨fun v c => ⌜Good n c ∧ SavedFrom i id previous c₀ c v⌝,
      fun _ c => ⌜Good n c ∧ Untold i c₀ c ∧ Blocked m id k previous c₀⌝⟩⦄ := by
  intro s hs
  simp only [SPred.down_pure] at hs
  subst hs
  cases henc : m.encode ((s.modifyObj k m.beforePersist).obj k) with
  | error f =>
    mvcgen [writeBack, encode, lift]
    case h_1 =>
      rename_i a hx
      simp +zetaDelta [henc] at hx
    case h_2 => exact ⟨hgood.modifyObj k _, ⟨rfl, rfl, fun _ _ => rfl, rfl, rfl⟩, .inl ⟨f, henc⟩⟩
  | ok rec =>
    let v := previous.append (s.node i).node false (s.node i).maxRun
    have hv : v.Stamped := Lineage.Stamped.append hprev.ascending hprev.valid (hgood.ids i hi) false _
    let record := rec.stamp id v s.clock id.owner
    have hrecord : record.version = v := Record.version_stamp rec id hv.valid _ _
    let r₃ := (s.node i).ownWriteStep id true
    let R := Backend.place id record s.backend.records
    have hnotify := notify_aside m (n := n) (i := i) (E := fun _ _ => False) .update id
      (Φ := fun c => Good n c ∧ c.node i = r₃ ∧ c.backend.records = R ∧ c.backend.writes = s.backend.writes)
      (Q := fun c => c.node i = r₃ ∧ c.backend.records = R ∧ c.backend.writes = s.backend.writes + 1)
      (fun j hj c c' hr hw hn _ h => ⟨(hn i (Ne.symm hj)).trans h.1, hr.trans h.2.1, hw.trans h.2.2⟩)
      (fun c h => h.1 ▸ Repository.isOwnWrite_ownWriteStep _ id)
      (fun c h => ⟨h.1.of_frame rfl rfl le_rfl, h.2.1, h.2.2.1, by simp [h.2.2.2]⟩)
    have hlen : i < s.nodes.length := hgood.size ▸ hi
    mvcgen [writeBack, encode, ownWrite, storeSave, onBackend, lift, onNode, attempt_wp, hnotify]
    case pre =>
      rename_i r t₁ a hx t₂ stored hsave
      obtain rfl : rec = a := by simpa +zetaDelta [henc] using hx
      have hok : (s.backend.save id record previous).2 = .ok stored := hsave
      obtain ⟨-, -, hsaved⟩ := Backend.save_ok _ _ _ _ hok
      refine ⟨((hgood.modifyObj k _).ownWriteStep i id true).save id (hrecord ▸ hv) previous,
        node_modifyNode_self _ i _ hlen, ?_, Backend.writes_save _ _ _ _⟩
      show (s.backend.save id record previous).1.records = R
      rw [hsaved]
    case success =>
      rename_i r t₁ a hx t₂ stored hsave u s₄ h₄ t₃ t₄
      obtain rfl : rec = a := by simpa +zetaDelta [henc] using hx
      have hok : (s.backend.save id record previous).2 = .ok stored := hsave
      obtain ⟨-, hsame, hsaved⟩ := Backend.save_ok _ _ _ _ hok
      have hstored : stored = v := by
        rw [hsaved] at hok
        exact (Except.ok.inj hok).symm.trans hrecord
      obtain ⟨hg₄, hnode₄, hrecords₄, hwrites₄⟩ := h₄
      refine ⟨(hg₄.ownWriteStep i id false).modifyObj k _, hsame, hstored, ⟨record, ?_, hrecord.trans hstored.symm⟩,
        hwrites₄, ?_⟩
      · show s₄.backend.records.lookup id = some record
        rw [hrecords₄, Backend.lookup_place, if_pos rfl]
      · show ((s₄.modifyNode i fun r => r.ownWriteStep id false).node i).cache = _
        rw [node_modifyNode_self _ i _ (hg₄.size ▸ hi), hnode₄]
        exact (Repository.cache_ownWriteStep _ id false).trans (Repository.cache_ownWriteStep _ id true)
    case h_2 =>
      rename_i r t₁ a hx t₂ f hsave t₃
      obtain rfl : rec = a := by simpa +zetaDelta [henc] using hx
      have herr : (s.backend.save id record previous).2 = .error f := hsave
      obtain ⟨hrecords, hwrites, -⟩ := Backend.save_error _ _ _ _ herr
      refine ⟨(((hgood.modifyObj k _).ownWriteStep i id true).save id (hrecord ▸ hv) previous).ownWriteStep
        i id false, ⟨hrecords, hwrites, fun j hj => ?_, ?_, rfl⟩, .inr (Backend.save_refused _ _ _ _ herr)⟩
      · exact (node_modifyNode_ne _ _ _ hj).trans (node_modifyNode_ne _ _ _ hj)
      · exact cache_ownWrite_round (s.modifyObj k _) hlen
    case ok.h_2 =>
      rename_i hx
      simp +zetaDelta [henc] at hx

/-- A write of node `i`'s entry of `id` that was stored, from cluster `c` to `c'`: the entry was
dirty and the store held a lineage the same as its base. The store now holds the base with the
node's tag on top, higher than what it replaced while the base is below the top of the range,
counted as one write, and the entry is clean on the stored lineage. -/
def Saved (i : Nat) (id : Identity) (c c' : Cluster ω) : Prop :=
  ∃ e r₀ r, (c.node i).cache.entryOf id = some e ∧ e.write = .dirty ∧
    c.backend.get? id = some r₀ ∧ r₀.version.compare e.version = .same ∧
    c'.backend.get? id = some r ∧
    r.version = e.version.append (c.node i).node false (c.node i).maxRun ∧
    ((e.version.top : Int) < i64Max → r.version.compare r₀.version = .higher) ∧
    c'.backend.writes = c.backend.writes + 1 ∧
    (c'.node i).cache.entryOf id = some { e with version := r.version, write := .clean }

/-- A write of node `i`'s entry of `id` that was refused, from cluster `c` to `c'`: the entry was
dirty and its save blocked. No record changed, no write was counted, no other node heard of it,
nothing was delivered, and the entry is as it was. -/
def Refused (i : Nat) (id : Identity) (c c' : Cluster ω) : Prop :=
  c'.backend.records = c.backend.records ∧ c'.backend.writes = c.backend.writes ∧
    (∀ j, j ≠ i → c'.node j = c.node j) ∧ c'.deliveries = c.deliveries ∧
    ∃ e, (c.node i).cache.entryOf id = some e ∧ e.write = .dirty ∧ Blocked m id e.inst e.version c ∧
      (c'.node i).cache.entryOf id = some e

/-- A write with nothing to do: node `i`'s entry of `id` is absent or not dirty, and the cluster
stays as it was. -/
def Unwritten (i : Nat) (id : Identity) (c c' : Cluster ω) : Prop :=
  c' = c ∧ ∀ e, (c.node i).cache.entryOf id = some e → e.write ≠ .dirty

omit [Inhabited ω] in
theorem onRecords_saved (i : Nat) (id : Identity) (c₀ : Cluster ω) :
    OnRecords fun c => Good n c ∧ Saved i id c₀ c := by
  rintro c c' hr hw hn hs ⟨hg, e, r₀, r, he, hd, hr₀, hsame, hget, hv, hhigher, hwrites, hentry⟩
  refine ⟨hg.of_frame hr hn hs, e, r₀, r, he, hd, hr₀, hsame, ?_, hv, hhigher, hw.trans hwrites, ?_⟩
  · unfold Backend.get?
    rw [hr]
    exact hget
  · rw [← hentry]
    unfold node
    rw [hn]

section Finish

variable {i : Nat} {id : Identity} {s : Cluster ω} {e : CacheEntry}

/-- The cluster a write of node `i` runs its save on: the entry is marked as being written. -/
abbrev Writing (i : Nat) (id : Identity) (s : Cluster ω) (e : CacheEntry) : Cluster ω :=
  s.modifyNode i fun r => { r with cache := (s.node i).cache.setEntry id { e with write := .updating } }

omit [Inhabited ω] in
theorem node_writing (hlen : i < s.nodes.length) :
    (Writing i id s e).node i =
      { s.node i with cache := (s.node i).cache.setEntry id { e with write := .updating } } :=
  node_modifyNode_self _ i _ hlen

omit [Inhabited ω] in
theorem entryOf_finish (hgood : Good n s) (hi : i < n) (he : (s.node i).cache.entryOf id = some e)
    {c : Cluster ω} (hc : Good n c) (hK : (c.node i).cache = ((Writing i id s e).node i).cache)
    (result : Outcome Lineage) :
    ((c.modifyNode i fun r =>
        { r with cache := ((c.node i).cache.finishFlush id ⟨e.serial, e.inst, e.version⟩ result).1 }).node
        i).cache.entryOf id = some (match result with
      | .ok v => { e with version := v, write := .clean }
      | .error _ => { e with write := .dirty }) := by
  have hkeyed := (hgood.caches i).keyed
  rw [node_modifyNode_self _ i _ (hc.size ▸ hi)]
  dsimp only
  rw [hK, node_writing (hgood.size ▸ hi)]
  dsimp only
  rw [Cache.finishFlush_entryOf (hkeyed.setEntry id _) (Cache.entryOf_setEntry_self hkeyed he) rfl]
  cases result <;> rfl

omit [Inhabited ω] in
theorem saved_finish (hgood : Good n s) (hi : i < n) (he : (s.node i).cache.entryOf id = some e)
    (hdirty : e.write = .dirty) {c : Cluster ω} {v : Lineage} (hc : Good n c)
    (hsaved : SavedFrom i id e.version (Writing i id s e) c v) :
    Good n (c.modifyNode i fun r =>
        { r with cache := ((c.node i).cache.finishFlush id ⟨e.serial, e.inst, e.version⟩ (.ok v)).1 }) ∧
      Saved i id s (c.modifyNode i fun r =>
        { r with cache := ((c.node i).cache.finishFlush id ⟨e.serial, e.inst, e.version⟩ (.ok v)).1 }) := by
  have hlen : i < s.nodes.length := hgood.size ▸ hi
  have hprev : e.version.Stamped := (hgood.caches i).version he
  have hbase : v = e.version.append (s.node i).node false (s.node i).maxRun := by
    rw [hsaved.version, node_writing hlen]
  have hv : v.Stamped := hbase ▸ Lineage.Stamped.append hprev.ascending hprev.valid (hgood.ids i hi) false _
  refine ⟨hc.cache i ((hc.caches i).finishFlush id _ fun w hw => ?_)
    ((hc.objects i).finishFlush (hc.caches i).keyed id _ _), ?_⟩
  · cases hw
    exact hv
  obtain ⟨r₀, hr₀, hsame⟩ := Backend.stored_of_same _ _ _ hsaved.same hprev
  obtain ⟨r, hr, hrv⟩ := hsaved.stored
  refine ⟨e, r₀, r, he, hdirty, hr₀, hsame, hr, hrv.trans hbase, fun room => ?_, hsaved.writes, ?_⟩
  · rw [hrv, hbase]
    exact Lineage.compare_append_of_same hprev room hsame _ false _
  · rw [hrv]
    exact entryOf_finish hgood hi he hc hsaved.cache (.ok v)

theorem refused_finish (hgood : Good n s) (hi : i < n) (he : (s.node i).cache.entryOf id = some e)
    (hdirty : e.write = .dirty) {c : Cluster ω} (hc : Good n c) (huntold : Untold i (Writing i id s e) c)
    (hblocked : Blocked m id e.inst e.version (Writing i id s e)) (f : Fault) :
    Good n (c.modifyNode i fun r =>
        { r with cache := ((c.node i).cache.finishFlush id ⟨e.serial, e.inst, e.version⟩ (.error f)).1 }) ∧
      Refused m i id s (c.modifyNode i fun r =>
        { r with cache := ((c.node i).cache.finishFlush id ⟨e.serial, e.inst, e.version⟩ (.error f)).1 }) := by
  have hsame : { e with write := .dirty } = e := by
    cases e
    cases hdirty
    rfl
  refine ⟨hc.cache i ((hc.caches i).finishFlush id _ fun w hw => by cases hw)
    ((hc.objects i).finishFlush (hc.caches i).keyed id _ _), huntold.records, huntold.writes,
    fun j hj => ?_, huntold.deliveries, e, he, hdirty, hblocked, ?_⟩
  · rw [node_modifyNode_ne _ _ _ hj, huntold.others j hj]
    exact node_modifyNode_ne _ _ _ hj
  · rw [entryOf_finish hgood hi he hc huntold.cache (.error f)]
    exact congrArg some hsame

end Finish

/-- **The write contract.** From a cluster where the invariant holds, a write of node `i`'s
entry of `id` is stored, has nothing to do, or is refused, and the invariant holds after it. -/
theorem write_spec (i : Nat) (id : Identity) (c₀ : Cluster ω) (hgood : Good n c₀) (hi : i < n) :
    ⦃fun c => ⌜c = c₀⌝⦄ write m i id
    ⦃post⟨fun w c => ⌜Good n c ∧ if w then Saved i id c₀ c else Unwritten i id c₀ c⌝,
      fun _ c => ⌜Good n c ∧ Refused m i id c₀ c⌝⟩⦄ := by
  intro s hs
  simp only [SPred.down_pure] at hs
  subst hs
  cases hb : (s.node i).cache.beginFlush id with
  | none =>
    mvcgen [write, hb]
    exact ⟨hgood, rfl, fun _ he => Cache.beginFlush_eq_none hb he⟩
  | some p =>
    obtain ⟨cache, t⟩ := p
    obtain ⟨e, he, hdirty, rfl, rfl⟩ := Cache.beginFlush_spec hb
    have hprev : e.version.Stamped := (hgood.caches i).version he
    have hgood₁ := hgood.cache i ((hgood.caches i).beginFlush hb).1
      ((hgood.objects i).beginFlush (hgood.caches i).keyed hb)
    have hwb := writeBack_spec m i id e.inst e.version _ hgood₁ hi hprev
    have hfan := fanOut_keeps (E := fun _ c => Good n c ∧ Refused m i id s c)
      (onRecords_saved (n := n) i id s) i .update id
    mvcgen [write, hb, onNode, attempt_wp, hwb, lift, peek, hfan, Cache.finishFlush_written]
    case isTrue.pre =>
      obtain ⟨hc, hsaved⟩ := ‹Good n _ ∧ SavedFrom _ _ _ _ _ _›
      exact saved_finish hgood hi he hdirty hc hsaved
    case isTrue.post.success =>
      simp only [‹_ = true›, ↓reduceIte]
      exact ‹Good n _ ∧ Saved _ _ _ _›
    case isFalse =>
      -- a save that went through is written
      rename_i hx _ hnot
      simp [Except.map] at hx
      exact absurd hx hnot
    case h_2 =>
      obtain ⟨hc, huntold, hblocked⟩ := ‹Good n _ ∧ Untold _ _ _ ∧ Blocked _ _ _ _ _›
      exact refused_finish m hgood hi he hdirty hc huntold hblocked _

end Cluster

end Stowage
