import Mathlib
import Stowage.Proofs.Cluster.Writes
import Stowage.Proofs.Settings.NodeIds
/-!
Every operation of a node keeps the invariant of the cluster, and so does every run.

A read loads and installs stamped lineages; a change is recorded in the cache or created in the
store under the node's valid id; a write is stored or refused as its contract says; a removal,
a discard and an eviction only take entries out; the flusher's work is writes; the application
only adds objects and changes them. So from nodes as they are built, sharing a store of stamped
lineages, every run of allowed actions keeps the invariant.
-/
open Std.Do

set_option mvcgen.warning false

namespace Stowage

open Stowage.Version

namespace Cluster

variable {ω : Type} [Inhabited ω] (m : ObjectModel ω) {n : Nat}

omit [Inhabited ω] in
theorem discard_keeps {β : Type} {x : ClusterOp ω β} {P Q : Cluster ω → Prop}
    {E : Fault → Cluster ω → Prop}
    (h : ⦃fun c => ⌜P c⌝⦄ x ⦃post⟨fun _ c => ⌜Q c⌝, fun f c => ⌜E f c⌝⟩⦄) :
    ⦃fun c => ⌜P c⌝⦄ discard x ⦃post⟨fun _ c => ⌜Q c⌝, fun f c => ⌜E f c⌝⟩⦄ := by
  rw [show discard x = (do let _ ← x; pure () : ClusterOp ω Unit) from rfl]
  mvcgen [h]

omit [Inhabited ω] in
theorem discard_ends {β : Type} {x : ClusterOp ω β} {P : Cluster ω → Prop}
    {Q : β → Cluster ω → Prop} {E : Fault → Cluster ω → Prop}
    (h : ⦃fun c => ⌜P c⌝⦄ x ⦃post⟨fun a c => ⌜Q a c⌝, fun f c => ⌜E f c⌝⟩⦄) :
    ⦃fun c => ⌜P c⌝⦄ discard x ⦃post⟨fun _ c => ⌜∃ a, Q a c⌝, fun f c => ⌜E f c⌝⟩⦄ := by
  rw [show discard x = (do let _ ← x; pure () : ClusterOp ω Unit) from rfl]
  mvcgen [h]
  exact ⟨_, ‹_›⟩

omit [Inhabited ω] in
theorem Good.createNew {c : Cluster ω} (h : Good n c) (id : Identity) {record : Record}
    (hr : record.version.Stamped) : Good n { c with backend := (c.backend.createNew id record).1 } :=
  h.withBackend (h.stored.createNew id hr)

theorem write_good (i : Nat) (id : Identity) (hi : i < n) :
    ⦃fun c => ⌜Good n c⌝⦄ write m i id ⦃post⟨fun _ c => ⌜Good n c⌝, fun _ c => ⌜Good n c⌝⟩⦄ := by
  refine triple_iff.mpr fun c hc => ?_
  have h := triple_iff.mp (write_spec m i id c hc hi) c rfl
  revert h
  rcases (write m i id).run.run c with ⟨_ | _, c'⟩ <;> exact fun h => h.1

omit [Inhabited ω] in
theorem onCache_good {P : Cluster ω → Prop} (i : Nat) (f : Cache → (Nat → Bool) → Cache × List Nat)
    (hf : ∀ c, P c → Good n c ∧ (f (c.node i).cache (c.heldBeyond i)).1.Stamped ∧
      (f (c.node i).cache (c.heldBeyond i)).1.Within c.objects.size) :
    ⦃fun c => ⌜P c⌝⦄ onCache m i f ⦃post⟨fun _ c => ⌜Good n c⌝, fun _ c => ⌜Good n c⌝⟩⦄ := by
  have htell := fun insts => tell_keeps m (onRecords_good (n := n)) insts
  mvcgen [onCache, htell]
  obtain ⟨hg, hs, hw⟩ := hf _ ‹_›
  exact hg.cache i hs hw

omit [Inhabited ω] in
theorem fetch_good (i : Nat) (id : Identity) :
    ⦃fun c => ⌜Good n c⌝⦄ fetch m i id ⦃post⟨fun _ c => ⌜Good n c⌝, fun _ c => ⌜Good n c⌝⟩⦄ := by
  have hload := load_spec m i id (onRecords_good (n := n))
  have hdiscard := onCache_good m (P := Good n) i (fun cache held => cache.discardExpired id held)
    fun c h => ⟨h, (h.caches i).discardExpired id _, (h.objects i).discardExpired id _⟩
  have hinstall := fun k v now => onCache_good m (P := fun c => Good n c ∧
      ∀ p ∈ some (k, v), 0 < p.1 ∧ p.1 ≤ c.objects.size ∧
        ∃ rec, c.backend.get? id = some rec ∧ rec.version = p.2)
    i (fun cache held => cache.install id k v now held) fun c ⟨h, hp⟩ => by
      obtain ⟨hpos, hk, rec, hrec, hv⟩ := hp (k, v) rfl
      have hv : rec.version = v := hv
      exact ⟨h, (h.caches i).install id k (hv ▸ h.stored.get? hrec) now _,
        (h.objects i).install (h.caches i).keyed id ⟨hpos, hk⟩ v now _⟩
  mvcgen [fetch, lift, onNode, hload, hdiscard, hinstall]
  case isFalse.h_1 =>
    -- a hit only touches the entry
    have hg := ‹Good n _›
    have hhit := ‹Cache.hit? _ _ _ = some _›
    exact hg.cache i ((hg.caches i).hit? hhit) ((hg.objects i).hit? (hg.caches i).keyed hhit)
  case isFalse.h_2.pre =>
    have hg := ‹Good n _›
    exact hg.modifyNode (hg.caches i).startLoad ((hg.objects i).of_entries rfl) rfl
  case success.h_1.pre => exact (‹Good n _ ∧ _›).1

theorem create_spec (i : Nat) (id : Identity) (k : Nat) (c₀ : Cluster ω) (hgood : Good n c₀)
    (hi : i < n) :
    ⦃fun c => ⌜c = c₀⌝⦄ create m i id k
    ⦃post⟨fun v c => ⌜Good n c ∧ v.Stamped ∧ (c.node i).cache = (c₀.node i).cache ∧
        c₀.objects.size ≤ c.objects.size⌝,
      fun _ c => ⌜Good n c⌝⟩⦄ := by
  intro s hs
  simp only [SPred.down_pure] at hs
  subst hs
  have hlen : i < s.nodes.length := hgood.size ▸ hi
  let v := Lineage.empty.append (s.node i).node false (s.node i).maxRun
  have hv : v.Stamped := Lineage.stamped_first (hgood.ids i hi) false _
  let r₃ := (s.node i).ownWriteStep id true
  have hnotify := notify_aside m (n := n) (i := i) (E := fun _ _ => False) .new id
    (Φ := fun c => Good n c ∧ c.node i = r₃ ∧ s.objects.size ≤ c.objects.size)
    (Q := fun c => c.node i = r₃ ∧ s.objects.size ≤ c.objects.size)
    (fun j hj c c' _ _ hn hs h => ⟨(hn i (Ne.symm hj)).trans h.1, h.2.trans hs⟩)
    (fun c h => h.1 ▸ Repository.isOwnWrite_ownWriteStep _ id)
    (fun c h => ⟨h.1.of_frame rfl rfl le_rfl, h.2⟩)
  have hstamp : ∀ rec : Record, (rec.stamp id v s.clock id.owner).version.Stamped := fun rec => by
    rw [Record.version_stamp rec id hv.valid]
    exact hv
  mvcgen [create, encode, ownWrite, storeCreate, onBackend, lift, onNode, attempt_wp, hnotify]
  case vc1.h_1.h_1.pre =>
    rename_i _ _ rec _ _ _ _
    exact ⟨((hgood.modifyObj k _).ownWriteStep i id true).createNew id (hstamp rec),
      node_modifyNode_self _ i _ hlen, (size_modifyObj s k _).ge⟩
  case vc2.h_1.h_1.post.success =>
    rename_i _ _ rec _ _ stored hcreate _ s₄ h₄ _ _
    obtain ⟨-, -, hsaved⟩ := Backend.createNew_ok _ _ _ hcreate
    rw [hsaved] at hcreate
    refine ⟨(h₄.1.ownWriteStep i id false).modifyObj k _, Except.ok.inj hcreate ▸ hstamp rec, ?_,
      h₄.2.2.trans (size_modifyObj _ k _).ge⟩
    show ((s₄.modifyNode i fun r => r.ownWriteStep id false).node i).cache = _
    rw [node_modifyNode_self _ i _ (h₄.1.size ▸ hi), h₄.2.1]
    exact (Repository.cache_ownWriteStep _ id false).trans (Repository.cache_ownWriteStep _ id true)
  case vc3.h_1.h_2 =>
    rename_i _ _ rec _ _ _ _ _
    exact (((hgood.modifyObj k _).ownWriteStep i id true).createNew id (hstamp rec)).ownWriteStep i id false
  case vc4.h_2 => exact hgood.modifyObj k _

theorem markUpdating_good (i : Nat) (id : Identity) (k : Nat) (hi : i < n) :
    ⦃fun c => ⌜Good n c ∧ 0 < k ∧ k ≤ c.objects.size⌝⦄ markUpdating m i id k
    ⦃post⟨fun _ c => ⌜Good n c⌝, fun _ c => ⌜Good n c⌝⟩⦄ := by
  intro s hs
  simp only [SPred.down_pure] at hs
  obtain ⟨hgood, hk⟩ := hs
  cases hm : (s.node i).cache.markExisting id k s.now with
  | some r =>
    mvcgen [markUpdating, onNode, hm]
    rename_i hr _
    rw [hr] at hm
    exact hgood.cache i ((hgood.caches i).markExisting hm)
      ((hgood.objects i).markExisting (hgood.caches i).keyed hm)
  | none =>
    have hnone := Cache.markExisting_eq_none hm
    have hcreate := create_spec m i id k s hgood hi
    have hinsert := fun stored now => onCache_good m (n := n) (P := fun c => Good n c ∧ stored.Stamped ∧
        (c.node i).cache = (s.node i).cache ∧ s.objects.size ≤ c.objects.size) i
      (fun cache held => cache.insert id k stored .clean now held) fun c hc' => by
        obtain ⟨h, hv, hc, hs⟩ := hc'
        rw [hc]
        exact ⟨h, (hgood.caches i).insert hnone k hv .clean now _,
          ((hgood.objects i).mono hs).insert (hgood.caches i).keyed hnone ⟨hk.1, hk.2.trans hs⟩ _
            .clean now _⟩
    mvcgen [markUpdating, hm, hcreate, hinsert]

theorem update_good (i k : Nat) (hi : i < n) :
    ⦃fun c => ⌜Good n c ∧ 0 < k ∧ k ≤ c.objects.size⌝⦄ update m i k
    ⦃post⟨fun _ c => ⌜Good n c⌝, fun _ c => ⌜Good n c⌝⟩⦄ := by
  have hmark := fun id => markUpdating_good m (n := n) i id k hi
  have hfan := fun id => fanOut_keeps (Φ := (Good n : Cluster ω → Prop)) (E := fun _ c => Good n c) onRecords_good i .new id
  have hwrite := fun id => discard_keeps (write_good m (n := n) i id hi)
  mvcgen [update, identityFor, lift, hmark, hfan, hwrite, peek, onNode]
  -- queuing or cancelling a write only changes the node's flusher
  all_goals first
    | exact ‹Good n _›.node rfl rfl
    | exact (‹Good n _ ∧ _›).1

theorem persist_good (i k : Nat) (hi : i < n) :
    ⦃fun c => ⌜Good n c ∧ 0 < k ∧ k ≤ c.objects.size⌝⦄ persist m i k
    ⦃post⟨fun _ c => ⌜Good n c⌝, fun _ c => ⌜Good n c⌝⟩⦄ := by
  have hmark := fun id => markUpdating_good m (n := n) i id k hi
  have hfan := fun id => fanOut_keeps (Φ := (Good n : Cluster ω → Prop)) (E := fun _ c => Good n c) onRecords_good i .new id
  have hwrite := fun id => discard_keeps (write_good m (n := n) i id hi)
  mvcgen [persist, identityFor, lift, hmark, hfan, hwrite, peek, cancelPending, onNode]
  -- queuing or cancelling a write only changes the node's flusher
  all_goals first
    | exact ‹Good n _›.node rfl rfl
    | exact (‹Good n _ ∧ _›).1

theorem flush_good (i k : Nat) (hi : i < n) :
    ⦃fun c => ⌜Good n c⌝⦄ flush m i k ⦃post⟨fun _ c => ⌜Good n c⌝, fun _ c => ⌜Good n c⌝⟩⦄ := by
  have hwrite := fun id => write_good m (n := n) i id hi
  mvcgen [flush, identityFor, lift, hwrite, cancelPending, onNode]
  exact ‹Good n _›.node rfl rfl

theorem flushHost_keeps_of {Φ : Cluster ω → Prop} (i : Nat)
    (hupdate : ∀ c f, Φ c → Φ ((flushHost m i).update c f))
    (hwrite : ∀ id, ⦃fun c => ⌜Φ c⌝⦄ write m i id ⦃post⟨fun _ c => ⌜Φ c⌝, fun _ c => ⌜Φ c⌝⟩⦄) :
    (flushHost m i).Keeps Φ where
  update := hupdate
  run c id h := by
    have hend := triple_iff.mp (hwrite id) c h
    simp only [flushHost]
    revert hend
    rcases (write m i id).run.run c with ⟨_ | _, c'⟩ <;> exact fun h => h

theorem flushHost_keeps (i : Nat) (hi : i < n) : (flushHost m i).Keeps (Good n) :=
  flushHost_keeps_of m i (fun _ _ h => h.node rfl rfl) fun id => write_good m i id hi

omit [Inhabited ω] in
theorem withFlusher_keeps {Φ : Cluster ω → Prop} (i : Nat) (F : Cluster ω → Cluster ω)
    (hF : ∀ c, Φ c → Φ (F c)) :
    ⦃fun c => ⌜Φ c⌝⦄ (modify fun c => if (c.node i).flusher.isSome then F c else c : ClusterOp ω Unit)
    ⦃post⟨fun _ c => ⌜Φ c⌝, fun _ c => ⌜Φ c⌝⟩⦄ := by
  mvcgen
  dsimp +zetaDelta only
  split
  · exact hF _ ‹_›
  · assumption

section Flusher

variable {Φ : Cluster ω → Prop} {i : Nat}

theorem flushAll_keeps (hk : (flushHost m i).Keeps Φ) :
    ⦃fun c => ⌜Φ c⌝⦄ flushAll m i ⦃post⟨fun _ c => ⌜Φ c⌝, fun _ c => ⌜Φ c⌝⟩⦄ :=
  withFlusher_keeps i _ fun _ h => hk.flushNow h _

theorem close_keeps (hk : (flushHost m i).Keeps Φ) :
    ⦃fun c => ⌜Φ c⌝⦄ close m i ⦃post⟨fun _ c => ⌜Φ c⌝, fun _ c => ⌜Φ c⌝⟩⦄ :=
  withFlusher_keeps i _ fun _ h => hk.close h _

theorem settle_keeps (hk : (flushHost m i).Keeps Φ) :
    ⦃fun c => ⌜Φ c⌝⦄ settle m i ⦃post⟨fun _ c => ⌜Φ c⌝, fun _ c => ⌜Φ c⌝⟩⦄ :=
  withFlusher_keeps i _ fun _ h => hk.work _ _ h

theorem sleepAll_keeps (ms : Nat) (nodes : List Nat) (hk : ∀ i ∈ nodes, (flushHost m i).Keeps Φ)
    {c : Cluster ω} (hc : Φ c) :
    Φ (nodes.foldl (fun c i =>
      if (c.node i).flusher.isSome then (flushHost m i).sleep c c.now ms else c) c) := by
  induction nodes generalizing c with
  | nil => exact hc
  | cons i rest ih =>
    refine ih (fun j hj => hk j (.tail _ hj)) ?_
    dsimp only
    split
    · exact (hk i (.head _)).sleep hc _ _
    · exact hc

end Flusher

omit [Inhabited ω] in
theorem ownWrite_good {β : Type} (i : Nat) (id : Identity) {call : ClusterOp ω β}
    (hcall : ⦃fun c => ⌜Good n c⌝⦄ call ⦃post⟨fun _ c => ⌜Good n c⌝, fun _ c => ⌜Good n c⌝⟩⦄) :
    ⦃fun c => ⌜Good n c⌝⦄ ownWrite i id call ⦃post⟨fun _ c => ⌜Good n c⌝, fun _ c => ⌜Good n c⌝⟩⦄ := by
  mvcgen [ownWrite, onNode, attempt_wp, hcall, lift]
  all_goals exact ‹Good n _›.ownWriteStep i id _

theorem storeDelete_good (id : Identity) :
    ⦃fun c => ⌜Good n c⌝⦄ storeDelete m id ⦃post⟨fun _ c => ⌜Good n c⌝, fun _ c => ⌜Good n c⌝⟩⦄ := by
  have hnotify := notify_good m (n := n) .delete id
  mvcgen [storeDelete, onBackend, lift, hnotify]
  all_goals exact ‹Good n _›.withBackend (‹Good n _›.stored.delete id)

theorem remove_good (i : Nat) (id : Identity) :
    ⦃fun c => ⌜Good n c⌝⦄ remove m i id ⦃post⟨fun _ c => ⌜Good n c⌝, fun _ c => ⌜Good n c⌝⟩⦄ := by
  have hdetach := detach_keeps (confined_good (n := n) (ω := ω) i id)
  have htell := fun insts => tell_keeps m (onRecords_good (n := n)) insts
  have hdelete := ownWrite_good (n := n) i id (storeDelete_good m id)
  have hfan := fanOut_keeps (Φ := (Good n : Cluster ω → Prop)) (E := fun _ c => Good n c)
    onRecords_good i .delete id
  mvcgen [remove, lift, hdetach, htell, cancelPending, onNode, hdelete, hfan]
  exact ‹Good n _›.node rfl rfl

omit [Inhabited ω] in
theorem discardEntry_good (i : Nat) (id : Identity) :
    ⦃fun c => ⌜Good n c⌝⦄ (discardEntry i id : ClusterOp ω Bool) ⦃post⟨fun _ c => ⌜Good n c⌝, fun _ c => ⌜Good n c⌝⟩⦄ := by
  have hdetach := detach_keeps (confined_good (n := n) (ω := ω) i id)
  mvcgen [discardEntry, hdetach, cancelPending, onNode]
  exact ‹Good n _›.node rfl rfl

omit [Inhabited ω] in
theorem addListener_good (i : Nat) (name : String) :
    ⦃fun c => ⌜Good n c⌝⦄ (addListener i name : ClusterOp ω Nat) ⦃post⟨fun _ c => ⌜Good n c⌝, fun _ c => ⌜Good n c⌝⟩⦄ := by
  mvcgen [addListener, onNode]
  -- listeners and the subscription flag are not part of the invariant; a subscription only
  -- adds a watcher to the store
  all_goals
    have hg := ‹Good n _›
    first
      | exact hg.node rfl rfl
      | exact ((hg.node rfl rfl).node rfl rfl).withBackend hg.stored

omit [Inhabited ω] in
theorem evictIdle_good (i : Nat) :
    ⦃fun c => ⌜Good n c⌝⦄ evictIdle m i ⦃post⟨fun _ c => ⌜Good n c⌝, fun _ c => ⌜Good n c⌝⟩⦄ := by
  have htell := fun insts => tell_keeps m (onRecords_good (n := n)) insts
  mvcgen [evictIdle, htell]
  have hg := ‹Good n _›
  exact hg.cache i ((hg.caches i).sweep _ _) ((hg.objects i).sweep (hg.caches i).keyed _ _)

omit [Inhabited ω] in
theorem holds_of_triple {β : Type} {op : ClusterOp ω β} {P Φ : Cluster ω → Prop}
    {Q : β → Cluster ω → Prop} {E : Fault → Cluster ω → Prop}
    (h : ⦃fun c => ⌜P c⌝⦄ op ⦃post⟨fun a c => ⌜Q a c⌝, fun f c => ⌜E f c⌝⟩⦄)
    (hQ : ∀ a c, Q a c → Φ c) (hE : ∀ f c, E f c → Φ c) {c : Cluster ω} (hc : P c) :
    Φ (op.run.run c).2 := by
  have hend := triple_iff.mp h c hc
  revert hend
  rcases op.run.run c with ⟨_ | a, c'⟩
  · exact hE _ _
  · exact hQ _ _

omit [Inhabited ω] in
theorem good_of_triple {β : Type} {op : ClusterOp ω β} {P : Cluster ω → Prop}
    (h : ⦃fun c => ⌜P c⌝⦄ op ⦃post⟨fun _ c => ⌜Good n c⌝, fun _ c => ⌜Good n c⌝⟩⦄) {c : Cluster ω}
    (hc : P c) : Good n (op.run.run c).2 :=
  holds_of_triple h (fun _ _ hg => hg) (fun _ _ hg => hg) hc

end Cluster

namespace Settings

theorem nodeValid_of_validate {s : Settings} {u : Unit} (h : s.validate = .ok u) :
    Tag.NodeValid s.node.id :=
  ((validate_eq_ok_iff s).mp h).1.nodeValid

end Settings

theorem Repository.build_ok {kind : String} {s : Settings} {feed : Feed} {keys : KeySource}
    {absorbs narrow : Bool} {now : Nat} {r : Repository}
    (h : Repository.build kind s feed keys absorbs narrow now = .ok r) :
    Tag.NodeValid r.node ∧ r.cache = Cache.empty s.cache.capacity s.idleTimeout? ∧
      r.maxRun = s.version.maxSameNodeRun := by
  unfold Repository.build at h
  cases hv : s.validate with
  | error e => simp [hv, bind, Except.bind] at h
  | ok u =>
    cases hm : Identity.make kind "_" with
    | error e => simp [hv, hm, bind, Except.bind, throw, throwThe, MonadExceptOf.throw] at h
    | ok a =>
      simp only [hv, hm, bind, Except.bind, pure, Except.pure, Except.ok.injEq] at h
      subst h
      exact ⟨Settings.nodeValid_of_validate hv, rfl, rfl⟩

namespace Cluster

variable {ω : Type} [Inhabited ω] (m : ObjectModel ω) {n : Nat}

/-- What can happen to a cluster: a call of one of its nodes, or a step of the application
and of the world around it. -/
inductive Action (ω : Type) where
  | get (i : Nat) (id : Identity)
  | update (i k : Nat)
  | persist (i k : Nat)
  | flush (i k : Nat)
  | flushAll (i : Nat)
  | close (i : Nat)
  | settle (i : Nat)
  | remove (i : Nat) (id : Identity)
  | discard (i : Nat) (id : Identity)
  | external (i : Nat) (kind : ChangeKind) (id : Identity)
  | listen (i : Nat) (name : String)
  | evict (i : Nat)
  /-- Time passes: every flusher wakes at its deadlines. -/
  | sleep (ms : Nat)
  /-- The application makes a new object. -/
  | make (o : ω)
  /-- The application changes an object. -/
  | edit (k : Nat) (g : ω → ω)
  | hold (h : String) (k : Nat)
  | drop (h : String)
  /-- The store fails its next calls. -/
  | failNext (count : Nat)

namespace Action

/-- An action as an operation on the cluster; answers are dropped. -/
def run : Action ω → ClusterOp ω Unit
  | .get i id => Functor.discard (fetch m i id)
  | .update i k => Cluster.update m i k
  | .persist i k => Functor.discard (Cluster.persist m i k)
  | .flush i k => Functor.discard (Cluster.flush m i k)
  | .flushAll i => Cluster.flushAll m i
  | .close i => Cluster.close m i
  | .settle i => Cluster.settle m i
  | .remove i id => Functor.discard (Cluster.remove m i id)
  | .discard i id => Functor.discard (discardEntry i id)
  | .external i kind id => onExternal m i kind id
  | .listen i name => Functor.discard (addListener i name)
  | .evict i => Functor.discard (evictIdle m i)
  | .sleep ms => modify fun c =>
    let c := (List.range c.nodes.length).foldl (fun c i =>
      if (c.node i).flusher.isSome then (flushHost m i).sleep c c.now ms else c) c
    { c with now := c.now + ms }
  | .make o => modify fun c => (c.make o).1
  | .edit k g => modify fun c => c.modifyObj k g
  | .hold h k => modify fun c => { c with handles := (h, k) :: c.handles.filter (·.1 != h) }
  | .drop h => modify fun c => { c with handles := c.handles.filter (·.1 != h) }
  | .failNext count => modify fun c => { c with backend := c.backend.failNext count }

/-- An action can be taken in a cluster of `n` nodes: it names one of the nodes, and a change
recorded in a cache names an object that exists; objects are numbered from one. -/
def Allowed (n : Nat) (c : Cluster ω) : Action ω → Prop
  | .get i _ | .flush i _ | .flushAll i | .close i | .settle i | .remove i _ | .discard i _
  | .external i _ _ | .listen i _ | .evict i => i < n
  | .update i k | .persist i k => i < n ∧ 0 < k ∧ k ≤ c.objects.size
  | .sleep _ | .make _ | .edit _ _ | .hold _ _ | .drop _ | .failNext _ => True

theorem good (a : Action ω) {c : Cluster ω} (hc : Good n c) (ha : a.Allowed n c) :
    Good n ((a.run m).run.run c).2 := by
  cases a with
  | get i id => exact good_of_triple (discard_keeps (fetch_good m i id)) hc
  | update i k => exact good_of_triple (update_good m i k ha.1) ⟨hc, ha.2⟩
  | persist i k => exact good_of_triple (discard_keeps (persist_good m i k ha.1)) ⟨hc, ha.2⟩
  | flush i k => exact good_of_triple (discard_keeps (flush_good m i k ha)) hc
  | flushAll i => exact good_of_triple (flushAll_keeps m (flushHost_keeps m i ha)) hc
  | close i => exact good_of_triple (close_keeps m (flushHost_keeps m i ha)) hc
  | settle i => exact good_of_triple (settle_keeps m (flushHost_keeps m i ha)) hc
  | remove i id => exact good_of_triple (discard_keeps (remove_good m i id)) hc
  | discard i id => exact good_of_triple (discard_keeps (discardEntry_good i id)) hc
  | external i kind id => exact good_of_triple (onExternal_keeps m (confined_good i id) kind) hc
  | listen i name => exact good_of_triple (discard_keeps (addListener_good i name)) hc
  | evict i => exact good_of_triple (discard_keeps (evictIdle_good m i)) hc
  | sleep ms =>
    have hk : ∀ i ∈ List.range c.nodes.length, (flushHost m i).Keeps (Good n) :=
      fun i hi => flushHost_keeps m i (hc.size ▸ List.mem_range.mp hi)
    exact (sleepAll_keeps m ms _ hk hc).of_frame rfl rfl le_rfl
  | make o =>
    show Good n (c.make o).1
    exact hc.of_frame rfl rfl (by simp [Cluster.make])
  | edit k g => exact hc.modifyObj k g
  | hold h k => exact hc.of_frame rfl rfl le_rfl
  | drop h => exact hc.of_frame rfl rfl le_rfl
  | failNext count => exact hc.of_frame rfl rfl le_rfl

end Action

/-- A cluster as it starts: `n` nodes under valid node ids with empty caches, as they are built,
sharing a store that holds stamped lineages only. -/
structure Fresh (n : Nat) (c : Cluster ω) : Prop where
  size : c.nodes.length = n
  stored : c.backend.Stamped
  ids : ∀ j < n, Tag.NodeValid (c.node j).node
  empty : ∀ j, (c.node j).cache.entries = []

omit [Inhabited ω] in
theorem Fresh.of_built {c : Cluster ω} (hsize : c.nodes.length = n) (hstored : c.backend.Stamped)
    (hbuilt : ∀ j < n, ∃ kind s feed keys absorbs narrow now,
      Repository.build kind s feed keys absorbs narrow now = .ok (c.node j)) : Fresh n c where
  size := hsize
  stored := hstored
  ids j hj := by
    obtain ⟨_, _, _, _, _, _, _, hb⟩ := hbuilt j hj
    exact (Repository.build_ok hb).1
  empty j := by
    by_cases hj : j < n
    · obtain ⟨_, _, _, _, _, _, _, hb⟩ := hbuilt j hj
      rw [(Repository.build_ok hb).2.1]
      rfl
    · -- beyond the nodes stands the default node, whose cache is empty too
      rw [show c.node j = default from List.getD_eq_default _ _ (by omega)]
      rfl

/-- The clusters a run of allowed actions reaches from a fresh one. -/
inductive Reachable (n : Nat) : Cluster ω → Prop
  | start {c : Cluster ω} : Fresh n c → Reachable n c
  | step {c : Cluster ω} (a : Action ω) : Reachable n c → a.Allowed n c →
      Reachable n ((a.run m).run.run c).2

omit [Inhabited ω] in
theorem Fresh.good {c : Cluster ω} (h : Fresh n c) : Good n c where
  size := h.size
  stored := h.stored
  caches j := (Cache.stamped_empty 0 none).of_entries (h.empty j)
  ids := h.ids
  objects j := (Cache.within_empty 0 none).of_entries (h.empty j)

/-- **The invariant holds along every run.** -/
theorem Reachable.good {c : Cluster ω} (h : Reachable m n c) : Good n c := by
  induction h with
  | start hf => exact hf.good
  | step a _ ha ih => exact a.good m ih ha

end Cluster

end Stowage