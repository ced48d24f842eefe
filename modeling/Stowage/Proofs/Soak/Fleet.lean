import Mathlib
import Stowage.Proofs.Cluster.Capped
import Stowage.Proofs.Cluster.Answers
import Stowage.Soak.Workload
/-!
The accounts of a soak run stay sound through every operation of its nodes.

An account keeps its identity through every hook, and a record decodes to an account of the
identity asked for, so the cluster of a soak run never makes up identities (`Ledger`).
`Sound` joins that ledger, kept for the accounts a run created, with the invariant of the nodes
and the run bound: every account stays stored, nothing else is stored or held, and every stored
lineage stays within the cap. Each operation of a node keeps it: a deposit writes behind on an
account it read, a transfer writes through and starts over after a conflict, a quote read
touches only the remote feed, and a flush runs queued writes. So soundness holds after the
nodes have run their operations, after they are closed and after the stranded accounts are
thrown away.
-/
open Std.Do

namespace Stowage.Soak

open Stowage.Cluster
open Stowage.Random

theorem account_keepsIdentity : Account.model.KeepsIdentity where
  beforePersist _ := rfl
  afterPersist _ _ := rfl
  afterLoad _ _ _ _ := rfl
  markDeleted _ := rfl
  absorb h := by
    obtain rfl := Option.some.inj h
    rfl
  decode {absorbs id r o} h := by
    simp only [Account.model] at h
    split at h
    · cases h
      rfl
    · cases h

section Sound

variable {n M : Nat} {P : Nat → String × String × PersisterSettings} {A : Set Identity}
  {c : Cluster Account}

/-- **A sound soak cluster.** The nodes keep the invariant and the run bound, and the ledger of
the accounts `A`: they all stay stored, and nothing else is stored or held. -/
structure Sound (n M : Nat) (P : Nat → String × String × PersisterSettings) (A : Set Identity)
    (c : Cluster Account) : Prop where
  good : Good n c
  capped : Capped n M c
  ledger : Ledger Account.model P A A c

theorem Sound.fetch (h : Sound n M P A c) (i : Nat) (id : Identity) :
    Sound n M P A ((Cluster.fetch Account.model i id).run.run c).2 := by
  obtain ⟨hg, hc⟩ := capped_of_triple (fetch_capped Account.model i id) ⟨h.good, h.capped⟩
  exact ⟨hg, hc, holds_of_triple (fetch_ledger Account.model account_keepsIdentity i id)
    (fun _ _ h => h) (fun _ _ h => h) h.ledger⟩

theorem Sound.fetch_some (h : Sound n M P A c) {i : Nat} {id : Identity} {k : Nat}
    {c' : Cluster Account} (hrun : (Cluster.fetch Account.model i id).run.run c = (.ok (some k), c')) :
    0 < k ∧ k ≤ c'.objects.size := by
  have hend := triple_iff.mp (fetch_answers Account.model i id) c h.good
  rw [hrun] at hend
  exact hend k rfl

theorem Sound.credit (h : Sound n M P A c) (k : Nat) (amount : Int) :
    Sound n M P A (c.modifyObj k fun a => { a with balance := a.balance + amount }) :=
  ⟨h.good.modifyObj k _, h.capped.modifyObj k _, h.ledger.modifyObj_keeps k fun _ => rfl⟩

theorem Sound.update (h : Sound n M P A c) {i k : Nat} (hi : i < n)
    (hk : 0 < k ∧ k ≤ c.objects.size) :
    Sound n M P A ((Cluster.update Account.model i k).run.run c).2 := by
  obtain ⟨hg, hc⟩ := capped_of_triple (update_capped Account.model i k hi) ⟨⟨h.good, h.capped⟩, hk⟩
  exact ⟨hg, hc, holds_of_triple (update_ledger Account.model account_keepsIdentity i k hi)
    (fun _ _ h => h.2) (fun _ _ h => h.2) ⟨⟨h.good, hk⟩, h.ledger⟩⟩

theorem Sound.persist (h : Sound n M P A c) {i k : Nat} (hi : i < n)
    (hk : 0 < k ∧ k ≤ c.objects.size) :
    Sound n M P A ((Cluster.persist Account.model i k).run.run c).2 := by
  obtain ⟨hg, hc⟩ := capped_of_triple (persist_capped Account.model i k hi) ⟨⟨h.good, h.capped⟩, hk⟩
  exact ⟨hg, hc, holds_of_triple (persist_ledger Account.model account_keepsIdentity i k hi)
    (fun _ _ h => h.2) (fun _ _ h => h.2) ⟨⟨h.good, hk⟩, h.ledger⟩⟩

theorem Sound.discardEntry (h : Sound n M P A c) (i : Nat) (id : Identity) :
    Sound n M P A ((Cluster.discardEntry (ω := Account) i id).run.run c).2 := by
  obtain ⟨hg, hc⟩ := capped_of_triple (discardEntry_capped i id) ⟨h.good, h.capped⟩
  exact ⟨hg, hc, holds_of_triple (discardEntry_ledger Account.model i id)
    (fun _ _ h => h) (fun _ _ h => h) h.ledger⟩

theorem Sound.write (h : Sound n M P A c) {i : Nat} (hi : i < n) (id : Identity) :
    Sound n M P A ((Cluster.write Account.model i id).run.run c).2 := by
  obtain ⟨hg, hc⟩ := capped_of_triple (write_capped Account.model i id hi) ⟨h.good, h.capped⟩
  exact ⟨hg, hc, holds_of_triple (write_ledger Account.model account_keepsIdentity i id)
    (fun _ _ h => h) (fun _ _ h => h) ⟨h.good, h.ledger⟩⟩

theorem flushHost_sound {i : Nat} (hi : i < n) :
    (flushHost Account.model i).Keeps (Sound n M P A) :=
  flushHost_keeps_of Account.model i
    (fun _ _ h => ⟨h.good.node rfl rfl, h.capped.keepCache i rfl rfl, h.ledger.modifyNode i rfl⟩)
    fun id => triple_of_holds fun _ h => h.write hi id

theorem Sound.flushAll (h : Sound n M P A c) {i : Nat} (hi : i < n) :
    Sound n M P A ((Cluster.flushAll Account.model i).run.run c).2 :=
  holds_of_triple (flushAll_keeps Account.model (flushHost_sound hi)) (fun _ _ h => h)
    (fun _ _ h => h) h

theorem Sound.close (h : Sound n M P A c) {i : Nat} (hi : i < n) :
    Sound n M P A ((Cluster.close Account.model i).run.run c).2 :=
  holds_of_triple (close_keeps Account.model (flushHost_sound hi)) (fun _ _ h => h)
    (fun _ _ h => h) h

end Sound

/-- The run lemma of a fold that can fail: what every turn keeps, counting turns, a fold that
succeeds ends in. -/
theorem foldlM_induction {α β ε : Type} {f : β → α → Except ε β} (I : Nat → β → Prop)
    (hf : ∀ k b a b', I k b → f b a = .ok b' → I (k + 1) b') {l : List α} {k : Nat} {b r : β}
    (hb : I k b) (h : l.foldlM f b = .ok r) : I (k + l.length) r := by
  induction l generalizing k b with
  | nil =>
    simp only [List.foldlM_nil, pure, Except.pure, Except.ok.injEq] at h
    exact h ▸ hb
  | cons a rest ih =>
    simp only [List.foldlM_cons, bind, Except.bind] at h
    split at h
    · cases h
    · have hr := ih (hf _ _ _ _ hb ‹_›) h
      rwa [Nat.add_right_comm, Nat.add_assoc] at hr

namespace Fleet

variable {n M : Nat} {P : Nat → String × String × PersisterSettings} {A : Set Identity}
  {w : Fleet}

theorem onCluster_eq (w : Fleet) {β : Type} (op : ClusterOp Account β) :
    w.onCluster op = ({ w with cluster := (op.run.run w.cluster).2 }, (op.run.run w.cluster).1) := by
  unfold onCluster
  cases op.run.run w.cluster
  rfl

theorem run_of_onCluster {w w' : Fleet} {β : Type} {op : ClusterOp Account β} {r : Outcome β}
    (h : w.onCluster op = (w', r)) : op.run.run w.cluster = (r, w'.cluster) := by
  rw [onCluster_eq] at h
  cases h
  rfl

theorem run_of_onCluster_snd {w : Fleet} {β : Type} {op : ClusterOp Account β} {r : Outcome β}
    (h : (w.onCluster op).2 = r) : op.run.run w.cluster = (r, (w.onCluster op).1.cluster) := by
  subst h
  rw [onCluster_eq]
  rfl

theorem holds_onCluster {Φ : Cluster Account → Prop} {w w' : Fleet} {β : Type}
    {op : ClusterOp Account β} {r : Outcome β} (h : w.onCluster op = (w', r))
    (hΦ : Φ (op.run.run w.cluster).2) : Φ w'.cluster := by
  rwa [run_of_onCluster h] at hΦ

@[simp] theorem cluster_count (i : Nat) (f : NodeCounters → NodeCounters) :
    (w.count i f).cluster = w.cluster := rfl

@[simp] theorem cluster_credit (k : Nat) (amount : Int) :
    (w.credit k amount).cluster =
      w.cluster.modifyObj k fun a => { a with balance := a.balance + amount } := rfl

theorem deposit_sound (hw : Sound n M P A w.cluster) {i : Nat} (hi : i < n) (g : ChaCha) :
    Sound n M P A (w.deposit i g).1.cluster := by
  unfold deposit
  dsimp only
  split
  · exact hw
  · split
    · exact holds_onCluster ‹_› (hw.fetch i _)
    · exact holds_onCluster ‹_› (hw.fetch i _)
    · next w' k heq =>
      -- the account read is credited and its change queued
      have hs := holds_onCluster heq (hw.fetch i _)
      have hk := hw.fetch_some (run_of_onCluster heq)
      rw [onCluster_eq]
      exact (hs.credit k _).update hi ⟨hk.1, by simpa using hk.2⟩

theorem transferTries_sound {i : Nat} (hi : i < n) (id : Identity) (amount : Int) :
    ∀ (tries : Nat) (w : Fleet), Sound n M P A w.cluster →
      Sound n M P A (transferTries i id amount tries w).1.cluster
  | 0, _, hw => hw
  | tries + 1, w, hw => by
    unfold transferTries
    split
    · exact holds_onCluster ‹_› (hw.fetch i id)
    · exact holds_onCluster ‹_› (hw.fetch i id)
    · next w' k heq =>
      have hs := holds_onCluster heq (hw.fetch i id)
      have hk := hw.fetch_some (run_of_onCluster heq)
      have hp : Sound n M P A ((persist Account.model i k).run.run (w'.credit k amount).cluster).2 :=
        (hs.credit k amount).persist hi ⟨hk.1, by simpa using hk.2⟩
      split
      · next w'' _ heq' => exact (holds_onCluster heq' hp : Sound n M P A w''.cluster)
      · next w'' f heq' =>
        split
        · -- a lost write: count it, throw the entry away and start over
          simp only [onCluster_eq]
          exact transferTries_sound hi id amount tries _
            ((holds_onCluster heq' hp).discardEntry i id)
        · exact holds_onCluster heq' hp

theorem transfer_sound (hw : Sound n M P A w.cluster) {i : Nat} (hi : i < n) (g : ChaCha) :
    Sound n M P A (w.transfer i g).1.cluster := by
  unfold transfer
  dsimp only
  split
  · exact hw
  · exact transferTries_sound hi _ _ 3 w hw

theorem cluster_readQuote (i : Nat) (g : ChaCha) : (w.readQuote i g).1.cluster = w.cluster := by
  unfold readQuote
  dsimp only
  repeat' split
  all_goals rfl

theorem flushAll_sound (hw : Sound n M P A w.cluster) {i : Nat} (hi : i < n) :
    Sound n M P A (w.flushAll i).cluster := by
  rw [flushAll, onCluster_eq]
  exact hw.flushAll hi

theorem step_sound (hw : Sound n M P A w.cluster) {i : Nat} (hi : i < n) (g : ChaCha) :
    Sound n M P A (step i w g).1.cluster := by
  unfold step
  dsimp only
  split
  all_goals
    split_ifs
    · exact deposit_sound hw hi _
    · exact transfer_sound hw hi _
    · exact (cluster_readQuote _ _).symm ▸ hw
    · exact flushAll_sound hw hi

/-- **The step lemma of the nodes' parts.** A turn keeps soundness, whichever node of the run
takes it and whatever its generators. -/
theorem turn_sound (p : Fleet × (Nat → ChaCha)) (hp : Sound n M P A p.1.cluster)
    {t : Nat × Move} (ht : t.1 < n) : Sound n M P A (turn p t).1.cluster := by
  obtain ⟨w, gens⟩ := p
  obtain ⟨i, _ | _⟩ := t
  · exact step_sound hp ht (gens i)
  · exact flushAll_sound hp ht

/-- **The run lemma of the nodes' parts.** Turns of the run's nodes keep soundness, in whatever
order the nodes take them. -/
theorem runTurns_sound (o : SoakOptions) (hw : Sound n M P A w.cluster) {turns : List (Nat × Move)}
    (hturns : ∀ t ∈ turns, t.1 < n) : Sound n M P A (w.runTurns o turns).cluster := by
  unfold runTurns
  exact List.foldlRecOn (motive := fun p : Fleet × (Nat → ChaCha) => Sound n M P A p.1.cluster)
    _ _ hw fun p hp t ht => turn_sound p hp (hturns t ht)

theorem nodeCount_of_sound (hw : Sound n M P A w.cluster) : w.nodeCount = n := hw.good.size

theorem closeNodes_sound (hw : Sound n M P A w.cluster) :
    Sound n M P A ((List.range w.nodeCount).foldl
      (fun w i => (w.onCluster (Cluster.close Account.model i)).1) w).cluster := by
  rw [nodeCount_of_sound hw]
  refine List.foldlRecOn (motive := fun w : Fleet => Sound n M P A w.cluster) _ _ hw
    fun w' hw' i hi => ?_
  rw [onCluster_eq]
  exact hw'.close (List.mem_range.mp hi)

theorem dropStranded_sound (hw : Sound n M P A w.cluster) {w' : Fleet} {stranded : Nat}
    (h : w.dropStranded = .ok (w', stranded)) : Sound n M P A w'.cluster := by
  unfold dropStranded at h
  -- every node in turn, and on each every account in turn
  refine foldlM_induction (fun _ p => Sound n M P A p.1.cluster) ?_ (k := 0) hw h
  rintro - ⟨w, stranded⟩ i p' hp hnode
  refine foldlM_induction (fun _ p => Sound n M P A p.1.cluster) ?_ (k := 0) hp hnode
  rintro - ⟨w, stranded⟩ id p' hp hstep
  dsimp only at hstep
  split at hstep
  · cases hstep
  · cases hstep
    exact holds_onCluster ‹_› (hp.fetch i id)
  · have hs := holds_onCluster ‹_› (hp.fetch i id)
    split at hstep
    · cases hstep
      rw [onCluster_eq]
      exact hs.discardEntry i id
    · cases hstep
      exact hs

end Fleet

end Stowage.Soak
