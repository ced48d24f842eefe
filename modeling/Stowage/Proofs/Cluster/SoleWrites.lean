import Mathlib
import Stowage.Proofs.Cluster.SingleWriter
/-!
What one write does in a cluster where its node writes its kind alone.

A stored change is delivered to every subscriber of its kind while the writing call runs. A
node takes no part in a change of an identity when it is of another kind, when it is writing
that identity itself, or when it caches nothing of the identity and has no listener: such a
node is aloof, and delivering to it changes nothing at all. In a coherent cluster every node
but the writer is aloof from the writer's identities: the other nodes are of other kinds, and
past the last node stands the default node, which caches nothing and has no listener. So a
write of a node that writes its kind alone changes nothing but its own entry, its object, the
record and the store's counters.

With every object encoding, a write of a dirty entry then has exactly two ends. With no
failure injected it stores the object's record with the node's tag on top of the entry's
lineage, counts one write and leaves the entry clean on the stored lineage. Otherwise it uses
up one injected failure, stores and counts nothing, and leaves the entry dirty as it was.
Either way only the written object may change, and the node's flusher and the clock stay as
they were.
-/
open Std.Do

set_option mvcgen.warning false

namespace Stowage

open Stowage.Version

namespace Backend

theorem failures_save (b : Backend) (id : Identity) (r : Record) (previous : Lineage) :
    (b.save id r previous).1.failures = b.failures - 1 := by
  by_cases hf : b.failures = 0
  · simp only [save, check_of_ready hf]
    split <;> simp [hf]
  · simp [save, check_of_failing hf]

theorem save_of_failing (b : Backend) (id : Identity) (r : Record) (previous : Lineage)
    (hf : b.failures ≠ 0) : (b.save id r previous).2 = .error (.backend "injected failure") := by
  simp [save, check_of_failing hf]

end Backend

namespace Repository

@[simp] theorem flusher_ownWriteStep (r : Repository) (id : Identity) (starting : Bool) :
    (r.ownWriteStep id starting).flusher = r.flusher := by
  unfold ownWriteStep; dsimp only; split_ifs <;> rfl

end Repository

namespace Cluster

variable {ω : Type}

/-- Node `r` takes no part in a change of `id`: it is of another kind, it is writing `id`
itself, or it caches nothing of `id` and has no listener to tell. -/
def Aloof (id : Identity) (r : Repository) : Prop :=
  id.kind ≠ r.kind ∨ r.isOwnWrite id = true ∨ (r.cache.contains id = false ∧ r.listeners.snapshot = [])

theorem Aloof.quiet {id : Identity} {r : Repository} (h : Aloof id r)
    (hheed : ¬(id.kind != r.kind || r.isOwnWrite id) = true) :
    r.cache.contains id = false ∧ r.listeners.snapshot = [] := by
  simp only [Bool.or_eq_true, bne_iff_ne, ne_eq, not_or, Decidable.not_not, Bool.not_eq_true] at hheed
  rcases h with hk | hown | hquiet
  · exact absurd hheed.1 hk
  · rw [hheed.2] at hown
    cases hown
  · exact hquiet

theorem flusher_modifyNode_ownWriteStep (c : Cluster ω) (i : Nat) (id : Identity) (starting : Bool)
    (j : Nat) :
    ((c.modifyNode i fun r => r.ownWriteStep id starting).node j).flusher = (c.node j).flusher := by
  rw [node_modifyNode]
  split
  · next h => rw [Repository.flusher_ownWriteStep, h.1]
  · rfl

theorem Coherent.aloof {n i : Nat} {K N : String} {M : Nat} {c : Cluster ω}
    (h : Coherent n i K N M c) (hg : Good n c) {id : Identity} (hK : id.kind = K) :
    ∀ j, j ≠ i → Aloof id (c.node j) := by
  intro j hj
  by_cases hjn : j < n
  · exact .inl fun hk => h.alone j hjn hj (hk.symm.trans hK)
  · have hdefault : c.node j = default := List.getD_eq_default _ _ (by rw [hg.size]; omega)
    rw [hdefault]
    exact .inr (.inr ⟨rfl, rfl⟩)

/-- Only object `k` of cluster `c` may differ in `c'`, and node `i`'s flusher and the clock are
as they were. -/
def Framed [Inhabited ω] (i k : Nat) (c c' : Cluster ω) : Prop :=
  (∀ j, j - 1 ≠ k - 1 → c'.obj j = c.obj j) ∧ (c'.node i).flusher = (c.node i).flusher ∧
    c'.now = c.now ∧ c'.wallStart = c.wallStart

section Framed

variable [Inhabited ω] {i k : Nat}

theorem Framed.refl (i k : Nat) (c : Cluster ω) : Framed i k c c :=
  ⟨fun _ _ => rfl, rfl, rfl, rfl⟩

theorem Framed.trans {c₁ c₂ c₃ : Cluster ω} (h₁ : Framed i k c₁ c₂) (h₂ : Framed i k c₂ c₃) :
    Framed i k c₁ c₃ :=
  ⟨fun j hj => (h₂.1 j hj).trans (h₁.1 j hj), h₂.2.1.trans h₁.2.1, h₂.2.2.1.trans h₁.2.2.1,
    h₂.2.2.2.trans h₁.2.2.2⟩

theorem Framed.cache {c c' : Cluster ω} (h : Framed i k c c') (j : Nat) (cache : Cache) :
    Framed i k c (c'.modifyNode j fun r => { r with cache }) := by
  refine ⟨h.1, ?_, h.2.2.1, h.2.2.2⟩
  rw [node_modifyNode]
  split
  · next hj => rw [← hj.1]; exact h.2.1
  · exact h.2.1

end Framed

variable [Inhabited ω] (m : ObjectModel ω)

theorem onExternal_aloof {Ψ : Cluster ω → Prop} (j : Nat) (id : Identity) :
    ⦃fun c => ⌜Ψ c ∧ ∀ j, Aloof id (c.node j)⌝⦄ onExternal m j .update id
    ⦃post⟨fun _ c => ⌜Ψ c ∧ ∀ j, Aloof id (c.node j)⌝,
      fun _ c => ⌜Ψ c ∧ ∀ j, Aloof id (c.node j)⌝⟩⦄ := by
  mvcgen [onExternal, fanOut, peek]
  all_goals
    have h := ‹Ψ _ ∧ ∀ j, Aloof id (Cluster.node _ j)›
    have hquiet := (h.2 j).quiet ‹¬(_ || _) = true›
  case vc2.isFalse.isTrue =>
    -- it does not cache the identity, so nothing is reloaded
    rename_i hcontains
    exact absurd (hquiet.1.symm.trans hcontains) Bool.false_ne_true
  case vc3.isFalse.isFalse =>
    -- and it has no listener, so nothing is delivered
    simp +zetaDelta only [hquiet.2, List.map_nil, List.reverse_nil, List.nil_append]
    exact h

/-- **A change nobody heeds.** When every node is aloof from `id`, delivering an update of it
only counts the change. -/
theorem notify_aloof {Φ Ψ : Cluster ω → Prop} {E : Fault → Cluster ω → Prop} (id : Identity)
    (hchanged : ∀ c, Φ c →
      Ψ { c with backend := (c.backend.changed id).1 } ∧ ∀ j, Aloof id (c.node j)) :
    ⦃fun c => ⌜Φ c⌝⦄ notify m .update id
    ⦃post⟨fun _ c => ⌜Ψ c ∧ ∀ j, Aloof id (c.node j)⌝, fun f c => ⌜E f c⌝⟩⦄ :=
  notify_spec m .update id hchanged fun j => onExternal_aloof m j id

theorem fanOut_only {Φ : Cluster ω → Prop} {E : Fault → Cluster ω → Prop}
    (hΦ : ∀ c d, Φ c → Φ { c with deliveries := d }) (j : Nat) (kind : ChangeKind) (id : Identity)
    (value : Option Nat) :
    ⦃fun c => ⌜Φ c⌝⦄ fanOut j kind id value ⦃post⟨fun _ c => ⌜Φ c⌝, fun f c => ⌜E f c⌝⟩⦄ := by
  mvcgen [fanOut]
  exact hΦ _ _ ‹_›

theorem writeBack_sole (i : Nat) (id : Identity) (k : Nat) (previous : Lineage) (s : Cluster ω)
    {rec : Record} (henc : m.encode ((s.modifyObj k m.beforePersist).obj k) = .ok rec)
    (haloof : ∀ j, j ≠ i → Aloof id (s.node j)) (hi : i < s.nodes.length) :
    ⦃fun c => ⌜c = s⌝⦄ writeBack m i id k previous
    ⦃post⟨fun _ c => ⌜s.backend.failures = 0 ∧ c.backend.failures = 0 ∧
        c.backend.get? id = some (rec.stamp id (previous.append (s.node i).node false (s.node i).maxRun)
          s.clock id.owner) ∧ Framed i k s c⌝,
      fun f c => ⌜(s.backend.failures ≠ 0 → f = .backend "injected failure") ∧
        c.backend.failures = s.backend.failures - 1 ∧ Framed i k s c⌝⟩⦄ := by
  intro s₀ hs
  simp only [SPred.down_pure] at hs
  subst hs
  let v := previous.append (s₀.node i).node false (s₀.node i).maxRun
  let record := rec.stamp id v s₀.clock id.owner
  let O := (s₀.modifyObj k m.beforePersist).objects
  let R := Backend.place id record s₀.backend.records
  -- the store call is heeded by nobody: node `i` is writing it, and the others are aloof
  have hnotify := notify_aloof m (E := fun _ _ => False) id
    (Φ := fun c => (c.backend.records = R ∧ c.backend.failures = 0 ∧ c.objects = O ∧
      (c.node i).flusher = (s₀.node i).flusher ∧ c.now = s₀.now ∧ c.wallStart = s₀.wallStart) ∧
      ∀ j, Aloof id (c.node j))
    (Ψ := fun c => c.backend.records = R ∧ c.backend.failures = 0 ∧ c.objects = O ∧
      (c.node i).flusher = (s₀.node i).flusher ∧ c.now = s₀.now ∧ c.wallStart = s₀.wallStart)
    (fun c h => ⟨h.1, h.2⟩)
  have hlen : i < (s₀.modifyObj k m.beforePersist).nodes.length := hi
  mvcgen [writeBack, encode, ownWrite, storeSave, onBackend, lift, onNode, attempt_wp, hnotify]
  case vc1.h_1.h_1.pre =>
    -- the save went through: the store holds the record, and every node is aloof
    rename_i r t₁ a hx t₂ stored hsave
    obtain rfl : rec = a := by simpa +zetaDelta [henc] using hx
    obtain ⟨hready, -, hsaved⟩ := Backend.save_ok _ _ _ _ hsave
    refine ⟨⟨by rw [hsaved]; rfl, by rw [hsaved]; exact hready, rfl, ?_, rfl, rfl⟩, fun j => ?_⟩
    · change (((s₀.modifyObj k m.beforePersist).modifyNode i fun r => r.ownWriteStep id true).node
        i).flusher = _
      rw [flusher_modifyNode_ownWriteStep]
      rfl
    · change Aloof id (((s₀.modifyObj k m.beforePersist).modifyNode i fun r =>
        r.ownWriteStep id true).node j)
      by_cases hj : j = i
      · subst hj
        rw [node_modifyNode_self _ j _ hlen]
        exact .inr (.inl (Repository.isOwnWrite_ownWriteStep _ id))
      · rw [node_modifyNode_ne _ _ _ hj]
        exact haloof j hj
  case vc2.h_1.h_1.post.success =>
    rename_i r t₁ a hx t₂ stored hsave u s₄ h₄ t₃ t₄
    obtain rfl : rec = a := by simpa +zetaDelta [henc] using hx
    obtain ⟨hready, -, -⟩ := Backend.save_ok _ _ _ _ hsave
    obtain ⟨⟨hrecords, hfailures, hobjects, hflusher, hnow, hwall⟩, -⟩ := h₄
    have hobj : ∀ j, s₄.obj j = (s₀.modifyObj k m.beforePersist).obj j := fun j => by
      unfold Cluster.obj
      rw [hobjects]
    refine ⟨hready, hfailures, ?_, fun j hj => ?_, ?_, hnow, hwall⟩
    · show s₄.backend.records.lookup id = _
      rw [hrecords, Backend.lookup_place, if_pos rfl]
    · change ((s₄.modifyNode i fun r => r.ownWriteStep id false).modifyObj k _).obj j = _
      rw [obj_modifyObj_ne _ (Ne.symm hj), obj_modifyNode, hobj]
      exact obj_modifyObj_ne _ (Ne.symm hj) _
    · change (((s₄.modifyNode i fun r => r.ownWriteStep id false).modifyObj k _).node i).flusher = _
      rw [node_modifyObj, flusher_modifyNode_ownWriteStep]
      exact hflusher
  case vc3.h_1.h_2 =>
    -- the save failed: a failure was used up, or the lineage was not the stored one
    rename_i r t₁ a hx t₂ f hsave t₃
    obtain rfl : rec = a := by simpa +zetaDelta [henc] using hx
    refine ⟨fun hf => ?_, ?_, fun j hj => ?_, ?_, rfl, rfl⟩
    · have hsave' : (s₀.backend.save id record previous).2 = .error f := hsave
      rw [Backend.save_of_failing _ _ _ _ hf] at hsave'
      exact (Except.error.inj hsave').symm
    · show (Cluster.backend (Cluster.modifyNode _ i fun r => r.ownWriteStep id false)).failures = _
      rw [backend_modifyNode]
      change (Backend.save _ id _ previous).1.failures = _
      rw [Backend.failures_save]
      rfl
    · change (s₀.modifyObj k m.beforePersist).obj j = _
      exact obj_modifyObj_ne _ (Ne.symm hj) _
    · show ((Cluster.modifyNode _ i fun r => r.ownWriteStep id false).node i).flusher = _
      rw [flusher_modifyNode_ownWriteStep]
      change (((s₀.modifyObj k m.beforePersist).modifyNode i fun r => r.ownWriteStep id true).node
        i).flusher = _
      rw [flusher_modifyNode_ownWriteStep]
      rfl
  case vc4.h_2 =>
    rename_i hx
    simp +zetaDelta [henc] at hx

theorem write_sole (i : Nat) (id : Identity) (s : Cluster ω) {e : CacheEntry}
    (he : (s.node i).cache.entryOf id = some e) (hd : e.write = .dirty) {rec : Record}
    (henc : m.encode ((s.modifyObj e.inst m.beforePersist).obj e.inst) = .ok rec)
    (haloof : ∀ j, j ≠ i → Aloof id (s.node j)) (hi : i < s.nodes.length) :
    ⦃fun c => ⌜c = s⌝⦄ write m i id
    ⦃post⟨fun _ c => ⌜s.backend.failures = 0 ∧ c.backend.failures = 0 ∧
        c.backend.get? id = some (rec.stamp id (e.version.append (s.node i).node false (s.node i).maxRun)
          s.clock id.owner) ∧ Framed i e.inst s c⌝,
      fun f c => ⌜(s.backend.failures ≠ 0 → f = .backend "injected failure") ∧
        c.backend.failures = s.backend.failures - 1 ∧ Framed i e.inst s c⌝⟩⦄ := by
  intro s₀ hs
  simp only [SPred.down_pure] at hs
  subst hs
  have hb : (s₀.node i).cache.beginFlush id =
      some ((s₀.node i).cache.setEntry id { e with write := .updating }, ⟨e.serial, e.inst, e.version⟩) := by
    simp [Cache.beginFlush, he, hd]
  let s₁ := s₀.modifyNode i fun r =>
    { r with cache := (s₀.node i).cache.setEntry id { e with write := .updating } }
  have hwb := writeBack_sole m i id e.inst e.version s₁ henc
    (fun j hj => by rw [node_modifyNode_ne _ _ _ hj]; exact haloof j hj) (by simpa [s₁] using hi)
  have hfan := fun v => fanOut_only (E := fun f c => (s₀.backend.failures ≠ 0 →
      f = .backend "injected failure") ∧ c.backend.failures = s₀.backend.failures - 1 ∧
      Framed i e.inst s₀ c)
    (Φ := fun c => s₀.backend.failures = 0 ∧ c.backend.failures = 0 ∧
      c.backend.get? id = some (rec.stamp id (e.version.append (s₀.node i).node false (s₀.node i).maxRun)
        s₀.clock id.owner) ∧ Framed i e.inst s₀ c)
    (fun _ _ h => h) i .update id v
  have hstart : Framed i e.inst s₀ s₁ := (Framed.refl i e.inst s₀).cache i _
  mvcgen [write, hb, onNode, attempt_wp, hwb, lift, peek, hfan, Cache.finishFlush_written]
  case vc1.post.success.h_1.isTrue.pre =>
    -- the save went through: what it stored is what the finished write leaves
    rename_i t v s₂ h₂ w hw jp hwt
    obtain ⟨hready, hfail, hrec, hframe⟩ := h₂
    have hnode : (s₁.node i).node = (s₀.node i).node ∧ (s₁.node i).maxRun = (s₀.node i).maxRun := by
      simp [s₁, node_modifyNode_self _ i _ hi]
    refine ⟨hready, hfail, ?_, hstart.trans (hframe.cache i _)⟩
    rw [backend_modifyNode, hrec, hnode.1, hnode.2]
    rfl
  case vc2.post.success.h_1.isFalse =>
    rename_i t v s₂ h₂ w hw jp hwt
    simp [Except.map] at hw
    exact absurd hw hwt
  case vc6.post.except.handle.h_2 =>
    -- the save failed, and the write fails as it did
    rename_i t f₀ s₂ h₂ f hf
    simp only [Except.map, Except.error.injEq] at hf
    subst hf
    exact ⟨h₂.1, h₂.2.1, hstart.trans (h₂.2.2.cache i _)⟩

variable {n i : Nat} {K N : String} {M : Nat}

/-- **A sole writer's write has two ends.** Node `i` writes kind `K` alone, and the object of
its dirty entry of `id` encodes. With no failure injected the write stores the object's record
on the entry's lineage with the node's tag on top, counts one write, and leaves the entry clean
on the stored lineage. Otherwise it fails with the injected failure, which it uses up, and
stores and counts nothing; the entry stays as it was. Either way the cluster stays coherent, no
other identity changes, and only the written object may change. -/
theorem write_outcome {s : Cluster ω} (hs : Good n s ∧ Coherent n i K N M s) (hi : i < n)
    {id : Identity} {e : CacheEntry} (he : (s.node i).cache.entryOf id = some e)
    (hd : e.write = .dirty) {rec : Record} (henc : m.encode (m.beforePersist (s.obj e.inst)) = .ok rec) :
    ∃ s', (Good n s' ∧ Coherent n i K N M s') ∧ OnlyAt id s s' ∧ Framed i e.inst s s' ∧
      if s.backend.failures = 0 then
        (write m i id).run.run s = (.ok true, s') ∧
          (s'.node i).cache.entryOf id =
            some { e with version := e.version.append N false M, write := .clean } ∧
          s'.backend.get? id = some (rec.stamp id (e.version.append N false M) s.clock id.owner) ∧
          s'.backend.writes = s.backend.writes + 1 ∧ s'.backend.failures = 0
      else
        (write m i id).run.run s = (.error (.backend "injected failure"), s') ∧
          (s'.node i).cache.entryOf id = some e ∧ s'.backend.records = s.backend.records ∧
          s'.backend.writes = s.backend.writes ∧ s'.backend.failures = s.backend.failures - 1 := by
  obtain ⟨hg, hco⟩ := hs
  have hkeyed := (hg.caches i).keyed
  have hK : id.kind = K := ((hco.kinds i).version hkeyed he).trans hco.kind
  have hinst := (hg.objects i).inst hkeyed he
  have henc' : m.encode ((s.modifyObj e.inst m.beforePersist).obj e.inst) = .ok rec := by
    rw [obj_modifyObj_self _ hinst.1 hinst.2]
    exact henc
  have hspec := triple_iff.mp (write_spec m i id s hg hi) s rfl
  have hframe := triple_iff.mp (write_onlyAt m i id s) s (OnlyAt.refl fun k => (hg.caches k).keyed)
  have hcoh := triple_iff.mp (write_coherent m hi id) s ⟨hg, hco⟩
  have hsole := triple_iff.mp
    (write_sole m i id s he hd henc' (hco.aloof hg hK) (hg.size ▸ hi)) s rfl
  revert hspec hframe hcoh hsole
  rcases hrun : (write m i id).run.run s with ⟨_ | w, s'⟩
  · rintro ⟨-, hrecords, hwrites, -, -, e', he', -, hblocked, he''⟩ ho hc ⟨hfault, hfail, hfr⟩
    obtain rfl : e' = e := Option.some.inj (he'.symm.trans he)
    -- the entry holds the stored lineage and the object encodes, so a failure was injected
    have hfailing : s.backend.failures ≠ 0 := by
      rcases hblocked with ⟨f, hf⟩ | hf | hsame
      · rw [henc'] at hf
        cases hf
      · exact hf
      · obtain ⟨-, -, -, r, hr, hv⟩ := hco.entry_written hg he'
        have hcurrent : Backend.current s.backend id = e'.version := by
          rw [← hv]
          simp [Backend.current, hr]
        exact absurd (hcurrent ▸ Lineage.compare_self _) hsame
    refine ⟨s', hc, ho, hfr, ?_⟩
    rw [if_neg hfailing, ← hfault hfailing]
    exact ⟨rfl, he'', hrecords, hwrites, hfail⟩
  · rintro ⟨-, hw⟩ ho hc ⟨hready, hfail, hrecord, hfr⟩
    cases w with
    | false =>
      -- a dirty entry is always written
      rw [if_neg Bool.false_ne_true] at hw
      exact absurd hd (hw.2 e he)
    | true =>
      rw [if_pos rfl] at hw
      obtain ⟨e₁, -, r, he₁, -, -, -, -, hv, -, hwrites, he'⟩ := hw
      obtain rfl : e₁ = e := Option.some.inj (he₁.symm.trans he)
      refine ⟨s', hc, ho, hfr, ?_⟩
      rw [if_pos hready]
      refine ⟨rfl, ?_, ?_, hwrites, hfail⟩
      · rw [he', hv, hco.node, hco.maxRun]
      · rw [hrecord, hco.node, hco.maxRun]

end Cluster

end Stowage
