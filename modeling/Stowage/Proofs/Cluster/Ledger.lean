import Mathlib
import Stowage.Proofs.Cluster.SingleWriter
import Stowage.Proofs.Store.Sorted
/-!
A cluster never makes up identities.

Take a model whose hooks keep an object's identity and whose decoding answers the identity it was
asked for. Then every object a cluster holds and every record its store holds is of an identity
that was there before: a load makes an object only of a stored record, a creation stores the
identity of an object, and a save succeeds only on an identity the store holds, its base being a
stamped lineage that the store must hold the same of. Only a deletion takes a record out, and the
store stays in identity order, so the identities stored only grow and none is stored twice. The
nodes keep their kind, node id and settings throughout.

`Ledger` collects these facts for a set `K` of identities that stay stored and a set `S` that
every object and record is named from; every operation but a removal keeps it.
-/
open Std.Do

set_option mvcgen.warning false

namespace Stowage

open Stowage.Version

/-- A model whose hooks keep an object's identity and whose decoding answers the identity it was
asked for. -/
structure ObjectModel.KeepsIdentity {ω : Type} (m : ObjectModel ω) : Prop where
  beforePersist (o : ω) : m.identity (m.beforePersist o) = m.identity o
  afterPersist (o : ω) (v : Lineage) : m.identity (m.afterPersist o v) = m.identity o
  afterLoad (o : ω) (id : Identity) (v : Lineage) (owner : Option String) :
    m.identity (m.afterLoad o id v owner) = m.identity o
  markDeleted (o : ω) : m.identity (m.markDeleted o) = m.identity o
  absorb {live peer taken : ω} : m.absorb live peer = some taken → m.identity taken = m.identity live
  decode {absorbs : Bool} {id : Identity} {r : Record} {o : ω} :
    m.decode absorbs id r = .ok o → m.identity o = id

namespace Repository

/-- What a node is set up with: its kind, its node id and its settings. -/
def setup (r : Repository) : String × String × PersisterSettings := (r.kind, r.node, r.settings)

@[simp] theorem setup_ownWriteStep (r : Repository) (id : Identity) (starting : Bool) :
    (r.ownWriteStep id starting).setup = r.setup := by
  unfold ownWriteStep setup; dsimp only; split_ifs <;> rfl

end Repository

theorem Array.mem_modify_cases {α : Type} {xs : Array α} {i : Nat} {f : α → α} {a : α}
    (h : a ∈ xs.modify i f) : a ∈ xs ∨ ∃ hi : i < xs.size, a = f xs[i] := by
  obtain ⟨j, hj, rfl⟩ := Array.mem_iff_getElem.mp h
  rw [Array.getElem_modify]
  split
  · next hij => subst hij; exact .inr ⟨by simpa using hj, rfl⟩
  · exact .inl (Array.getElem_mem _)

namespace Cluster

variable {ω : Type}

/-- **No identity is made up.** Node `j` keeps the setup `P j`; the store keeps its records in
identity order and keeps every identity of `K`; and every record the store holds and every
object is of an identity of `S`. -/
structure Ledger (m : ObjectModel ω) (P : Nat → String × String × PersisterSettings)
    (K S : Set Identity) (c : Cluster ω) : Prop where
  setup : ∀ j, (c.node j).setup = P j
  sorted : c.backend.Sorted
  kept : ∀ x ∈ K, (c.backend.get? x).isSome
  stored : ∀ p ∈ c.backend.records, p.1 ∈ S
  named : ∀ o ∈ c.objects, m.identity o ∈ S

section Frame

variable {m : ObjectModel ω} {P : Nat → String × String × PersisterSettings} {K S : Set Identity}
  {c c' : Cluster ω}

theorem Ledger.of_frame (h : Ledger m P K S c) (hr : c'.backend.records = c.backend.records)
    (hn : c'.nodes = c.nodes) (ho : c'.objects = c.objects) : Ledger m P K S c' where
  setup j := by unfold node; rw [hn]; exact h.setup j
  sorted := by unfold Backend.Sorted; rw [hr]; exact h.sorted
  kept x hx := by unfold Backend.get?; rw [hr]; exact h.kept x hx
  stored := by rw [hr]; exact h.stored
  named := by rw [ho]; exact h.named

theorem Ledger.modifyNode (h : Ledger m P K S c) (j : Nat) {f : Repository → Repository}
    (hf : (f (c.node j)).setup = (c.node j).setup) : Ledger m P K S (c.modifyNode j f) where
  setup k := by
    rw [node_modifyNode]
    split
    · next hkj => rw [hf, hkj.1]; exact h.setup j
    · exact h.setup k
  sorted := h.sorted
  kept := h.kept
  stored := h.stored
  named := h.named

theorem Ledger.ownWriteStep (h : Ledger m P K S c) (j : Nat) (id : Identity) (starting : Bool) :
    Ledger m P K S (c.modifyNode j fun r => r.ownWriteStep id starting) :=
  h.modifyNode j (Repository.setup_ownWriteStep _ _ _)

theorem Ledger.make (h : Ledger m P K S c) {o : ω} (ho : m.identity o ∈ S) :
    Ledger m P K S (c.make o).1 where
  setup := h.setup
  sorted := h.sorted
  kept := h.kept
  stored := h.stored
  named o' hmem := by
    rcases Array.mem_push.mp hmem with hmem | rfl
    exacts [h.named o' hmem, ho]

theorem Ledger.withBackend (h : Ledger m P K S c) {b : Backend} (hs : b.Sorted)
    (hk : ∀ x ∈ K, (b.get? x).isSome) (hr : ∀ p ∈ b.records, p.1 ∈ S) :
    Ledger m P K S { c with backend := b } :=
  ⟨h.setup, hs, hk, hr, h.named⟩

theorem Ledger.save (h : Ledger m P K S c) (id : Identity) (r : Record) {previous : Lineage}
    (hprev : previous.Stamped) : Ledger m P K S { c with backend := (c.backend.save id r previous).1 } := by
  refine h.withBackend (h.sorted.save id r previous)
    (fun x hx => Backend.isSome_get?_save id r (h.kept x hx) previous) ?_
  cases hres : (c.backend.save id r previous).2 with
  | error f => rw [Backend.records_save_of_error _ _ _ _ hres]; exact h.stored
  | ok v =>
    obtain ⟨-, hsame, hsaved⟩ := Backend.save_ok _ _ _ _ hres
    obtain ⟨rec, hrec, -⟩ := Backend.stored_of_same _ _ _ hsame hprev
    rw [hsaved]
    intro p hp
    rcases Backend.mem_place hp with rfl | hp
    · exact h.stored (id, rec) (Backend.get?_mem hrec)
    · exact h.stored p hp

theorem Ledger.createNew (h : Ledger m P K S c) {id : Identity} (hid : id ∈ S) (r : Record) :
    Ledger m P K S { c with backend := (c.backend.createNew id r).1 } := by
  refine h.withBackend (h.sorted.createNew id r)
    (fun x hx => Backend.isSome_get?_createNew id r (h.kept x hx)) ?_
  rcases Backend.records_createNew c.backend id r with e | e <;> rw [e]
  · exact h.stored
  · intro p hp
    rcases Backend.mem_place hp with rfl | hp
    exacts [hid, h.stored p hp]

theorem Ledger.anti (h : Ledger m P K S c) {K' : Set Identity} (hK : K' ⊆ K) :
    Ledger m P K' S c :=
  ⟨h.setup, h.sorted, fun x hx => h.kept x (hK hx), h.stored, h.named⟩

theorem Ledger.widen (h : Ledger m P K S c) {S' : Set Identity} (hS : S ⊆ S') :
    Ledger m P K S' c :=
  ⟨h.setup, h.sorted, h.kept, fun p hp => hS (h.stored p hp), fun o ho => hS (h.named o ho)⟩

theorem Ledger.insert (h : Ledger m P K S c) {x : Identity} (hx : (c.backend.get? x).isSome) :
    Ledger m P (insert x K) S c :=
  ⟨h.setup, h.sorted, fun y hy => (Set.mem_insert_iff.mp hy).elim (· ▸ hx) (h.kept y), h.stored,
    h.named⟩

section Objects

variable [Inhabited ω]

theorem Ledger.modifyObj (h : Ledger m P K S c) (k : Nat) {g : ω → ω}
    (hg : k - 1 < c.objects.size → m.identity (g (c.obj k)) ∈ S) :
    Ledger m P K S (c.modifyObj k g) where
  setup := h.setup
  sorted := h.sorted
  kept := h.kept
  stored := h.stored
  named o hmem := by
    rcases Array.mem_modify_cases hmem with hmem | ⟨hk, rfl⟩
    · exact h.named o hmem
    · have := hg hk
      rwa [Cluster.obj, Array.getD_eq_getD_getElem?, Array.getElem?_eq_getElem hk,
        Option.getD_some] at this

theorem Ledger.identity_obj (h : Ledger m P K S c) {k : Nat} (hk : k - 1 < c.objects.size) :
    m.identity (c.obj k) ∈ S := by
  rw [Cluster.obj, Array.getD_eq_getD_getElem?, Array.getElem?_eq_getElem hk, Option.getD_some]
  exact h.named _ (Array.getElem_mem hk)

theorem Ledger.modifyObj_keeps (h : Ledger m P K S c) (k : Nat) {g : ω → ω}
    (hg : ∀ o, m.identity (g o) = m.identity o) : Ledger m P K S (c.modifyObj k g) :=
  h.modifyObj k fun hk => (hg _).symm ▸ h.identity_obj hk

end Objects

end Frame

section Triples

variable {β : Type} {op : ClusterOp ω β} {Q Q₁ Q₂ : β → Cluster ω → Prop}
  {E E₁ E₂ : Fault → Cluster ω → Prop}

theorem triple_weaken {P₁ P₂ : Cluster ω → Prop}
    (h : ⦃fun c => ⌜P₁ c⌝⦄ op ⦃post⟨fun a c => ⌜Q a c⌝, fun f c => ⌜E f c⌝⟩⦄)
    (hP : ∀ c, P₂ c → P₁ c) :
    ⦃fun c => ⌜P₂ c⌝⦄ op ⦃post⟨fun a c => ⌜Q a c⌝, fun f c => ⌜E f c⌝⟩⦄ :=
  triple_iff.mpr fun c hc => triple_iff.mp h c (hP c hc)

theorem triple_post {P : Cluster ω → Prop} {Q' : β → Cluster ω → Prop}
    {E' : Fault → Cluster ω → Prop}
    (h : ⦃fun c => ⌜P c⌝⦄ op ⦃post⟨fun a c => ⌜Q a c⌝, fun f c => ⌜E f c⌝⟩⦄)
    (hQ : ∀ a c, Q a c → Q' a c) (hE : ∀ f c, E f c → E' f c) :
    ⦃fun c => ⌜P c⌝⦄ op ⦃post⟨fun a c => ⌜Q' a c⌝, fun f c => ⌜E' f c⌝⟩⦄ := by
  refine triple_iff.mpr fun c hc => ?_
  have hend := triple_iff.mp h c hc
  revert hend
  rcases op.run.run c with ⟨_ | _, c'⟩
  exacts [hE _ _, hQ _ _]

theorem triple_both {P₁ P₂ : Cluster ω → Prop}
    (h₁ : ⦃fun c => ⌜P₁ c⌝⦄ op ⦃post⟨fun a c => ⌜Q₁ a c⌝, fun f c => ⌜E₁ f c⌝⟩⦄)
    (h₂ : ⦃fun c => ⌜P₂ c⌝⦄ op ⦃post⟨fun a c => ⌜Q₂ a c⌝, fun f c => ⌜E₂ f c⌝⟩⦄) :
    ⦃fun c => ⌜P₁ c ∧ P₂ c⌝⦄ op ⦃post⟨fun a c => ⌜Q₁ a c ∧ Q₂ a c⌝, fun f c => ⌜E₁ f c ∧ E₂ f c⌝⟩⦄ :=
  triple_and (triple_weaken h₁ fun _ h => h.1) (triple_weaken h₂ fun _ h => h.2)

theorem triple_of_holds {P Φ : Cluster ω → Prop} (h : ∀ c, P c → Φ (op.run.run c).2) :
    ⦃fun c => ⌜P c⌝⦄ op ⦃post⟨fun _ c => ⌜Φ c⌝, fun _ c => ⌜Φ c⌝⟩⦄ := by
  refine triple_iff.mpr fun c hc => ?_
  have hend := h c hc
  revert hend
  rcases op.run.run c with ⟨_ | _, c'⟩ <;> exact id

end Triples

section Ops

variable [Inhabited ω] (m : ObjectModel ω) (hm : m.KeepsIdentity)
  {P : Nat → String × String × PersisterSettings} {K S : Set Identity} {n : Nat}

include hm in
theorem Ledger.tell {c : Cluster ω} (h : Ledger m P K S c) (insts : List Nat) :
    Ledger m P K S (insts.foldl (fun c n => c.modifyObj n m.markDeleted) c) := by
  induction insts generalizing c with
  | nil => exact h
  | cons k rest ih => exact ih (h.modifyObj_keeps k hm.markDeleted)

include hm in
theorem tell_ledger (insts : List Nat) :
    ⦃fun c => ⌜Ledger m P K S c⌝⦄ tell m insts
    ⦃post⟨fun _ c => ⌜Ledger m P K S c⌝, fun _ c => ⌜Ledger m P K S c⌝⟩⦄ := by
  mvcgen [tell]
  have h := ‹Ledger m P K S _›
  exact h.tell m hm insts

theorem fanOut_ledger {E : Fault → Cluster ω → Prop} (j : Nat) (kind : ChangeKind) (id : Identity)
    (value : Option Nat) :
    ⦃fun c => ⌜Ledger m P K S c⌝⦄ fanOut j kind id value
    ⦃post⟨fun _ c => ⌜Ledger m P K S c⌝, fun f c => ⌜E f c⌝⟩⦄ := by
  mvcgen [fanOut]
  have h := ‹Ledger m P K S _›
  exact h.of_frame rfl rfl rfl

omit [Inhabited ω] in
include hm in
theorem Ledger.loaded {c : Cluster ω} (h : Ledger m P K S c) {id : Identity} {l : Loaded}
    (hload : (c.backend.load id).2 = .ok (some l)) {absorbs : Bool} {o : ω}
    (hdec : m.decode absorbs id l.record = .ok o) :
    Ledger m P K S ({ c with backend := (c.backend.load id).1 }.make o).1 := by
  obtain ⟨rec, hrec, -⟩ := Backend.load_some _ _ hload
  have hid : m.identity o ∈ S := (hm.decode hdec).symm ▸ h.stored (id, rec) (Backend.get?_mem hrec)
  have hread : Ledger m P K S { c with backend := (c.backend.load id).1 } :=
    h.of_frame (by simp) rfl rfl
  exact hread.make hid

include hm in
theorem load_ledger (i : Nat) (id : Identity) :
    ⦃fun c => ⌜Ledger m P K S c⌝⦄ load m i id
    ⦃post⟨fun _ c => ⌜Ledger m P K S c⌝, fun _ c => ⌜Ledger m P K S c⌝⟩⦄ := by
  mvcgen [load, onBackend, lift]
  case vc3 _ h _ hload _ hl _ _ _ hdec _ _ _ =>
    subst hl
    exact h.loaded m hm hload hdec
  case vc4 _ h _ hload _ hl _ _ _ hdec _ _ _ _ =>
    subst hl
    exact (h.loaded m hm hload hdec).modifyObj_keeps _ fun o => hm.afterLoad o id _ _
  -- every other end is the store's answer, which leaves the records as they were
  all_goals
    have h := ‹Ledger m P K S _›
    exact h.of_frame (by simp) rfl rfl

omit [Inhabited ω] in
theorem detach_ledger (j : Nat) (id : Identity) :
    ⦃fun c => ⌜Ledger m P K S c⌝⦄ (detach j id : ClusterOp ω (Option Nat))
    ⦃post⟨fun _ c => ⌜Ledger m P K S c⌝, fun _ c => ⌜Ledger m P K S c⌝⟩⦄ := by
  mvcgen [detach]
  have h := ‹Ledger m P K S _›
  exact h.modifyNode j rfl

include hm in
theorem onExternal_ledger (j : Nat) (kind : ChangeKind) (id : Identity) :
    ⦃fun c => ⌜Ledger m P K S c⌝⦄ onExternal m j kind id
    ⦃post⟨fun _ c => ⌜Ledger m P K S c⌝, fun _ c => ⌜Ledger m P K S c⌝⟩⦄ := by
  have hload := load_ledger m hm (P := P) (K := K) (S := S) j id
  have hfan := fanOut_ledger m (P := P) (K := K) (S := S) (E := fun _ c => Ledger m P K S c)
  have htell := tell_ledger m hm (P := P) (K := K) (S := S)
  have hdetach := detach_ledger (ω := ω) m (P := P) (K := K) (S := S) j id
  mvcgen [onExternal, hload, hfan, htell, hdetach, peek, onNode]
  case vc5 | vc14 =>
    have h := ‹Ledger m P K S _›
    have habsorb := hm.absorb ‹m.absorb _ _ = some _›
    exact (h.modifyObj _ fun hk => habsorb ▸ h.identity_obj hk).modifyNode j rfl
  -- a refresh or an expiry changes only node `j`'s cache
  case vc6 | vc15 | vc23 =>
    have h := ‹Ledger m P K S _›
    exact h.modifyNode j rfl

include hm in
theorem notify_ledger {E : Fault → Cluster ω → Prop} (kind : ChangeKind) (id : Identity) :
    ⦃fun c => ⌜Ledger m P K S c⌝⦄ notify m kind id
    ⦃post⟨fun _ c => ⌜Ledger m P K S c⌝, fun f c => ⌜E f c⌝⟩⦄ :=
  notify_spec m kind id (fun _ h => h.of_frame rfl rfl rfl) fun j => onExternal_ledger m hm j kind id

omit [Inhabited ω] in
theorem ownWrite_ledger {β : Type} (i : Nat) (id : Identity) {call : ClusterOp ω β}
    (hcall : ⦃fun c => ⌜Ledger m P K S c⌝⦄ call
      ⦃post⟨fun _ c => ⌜Ledger m P K S c⌝, fun _ c => ⌜Ledger m P K S c⌝⟩⦄) :
    ⦃fun c => ⌜Ledger m P K S c⌝⦄ ownWrite i id call
    ⦃post⟨fun _ c => ⌜Ledger m P K S c⌝, fun _ c => ⌜Ledger m P K S c⌝⟩⦄ := by
  mvcgen [ownWrite, onNode, attempt_wp, hcall, lift]
  all_goals
    have h := ‹Ledger m P K S _›
    exact h.ownWriteStep i id _

include hm in
theorem storeSave_ledger (id : Identity) (record : Record) {previous : Lineage}
    (hprev : previous.Stamped) :
    ⦃fun c => ⌜Ledger m P K S c⌝⦄ storeSave m id record previous
    ⦃post⟨fun _ c => ⌜Ledger m P K S c⌝, fun _ c => ⌜Ledger m P K S c⌝⟩⦄ := by
  have hnotify := notify_ledger m hm (P := P) (K := K) (S := S)
    (E := fun _ c => Ledger m P K S c) .update id
  mvcgen [storeSave, onBackend, lift, hnotify]
  all_goals
    have h := ‹Ledger m P K S _›
    exact h.save id record hprev

include hm in
theorem storeCreate_ledger {id : Identity} (hid : id ∈ S) (record : Record) :
    ⦃fun c => ⌜Ledger m P K S c⌝⦄ storeCreate m id record
    ⦃post⟨fun _ c => ⌜Ledger m P (insert id K) S c ∧ id ∉ K⌝, fun _ c => ⌜Ledger m P K S c⌝⟩⦄ := by
  have hnotify := notify_ledger m hm (P := P) (K := insert id K) (S := S)
    (E := fun _ c => Ledger m P K S c) .new id
  mvcgen [storeCreate, onBackend, lift, hnotify]
  case vc1 _ h v hcreate =>
    obtain ⟨-, -, hcreated⟩ := Backend.createNew_ok _ _ _ hcreate
    refine (h.createNew hid record).insert ?_
    rw [hcreated, Backend.get?, Backend.lookup_place, if_pos rfl]
    rfl
  case vc2 _ h v hcreate _ _ _ =>
    -- the identity was not stored, so it was not kept
    obtain ⟨-, hnone, -⟩ := Backend.createNew_ok _ _ _ hcreate
    exact ⟨‹_›, fun hK => by simpa [hnone] using h.kept id hK⟩
  all_goals
    have h := ‹Ledger m P K S _›
    exact h.createNew hid record

include hm in
theorem writeBack_ledger (i : Nat) (id : Identity) (k : Nat) {previous : Lineage}
    (hprev : previous.Stamped) :
    ⦃fun c => ⌜Ledger m P K S c⌝⦄ writeBack m i id k previous
    ⦃post⟨fun _ c => ⌜Ledger m P K S c⌝, fun _ c => ⌜Ledger m P K S c⌝⟩⦄ := by
  have hown := fun record => ownWrite_ledger m (P := P) (K := K) (S := S) i id
    (storeSave_ledger m hm id record hprev)
  mvcgen [writeBack, encode, lift, hown]
  -- the hooks around the store call keep the object's identity
  case vc1 | vc3 =>
    have h := ‹Ledger m P K S _›
    exact h.modifyObj_keeps k hm.beforePersist
  case vc2 =>
    have h := ‹Ledger m P K S _›
    exact h.modifyObj_keeps k fun o => hm.afterPersist o _

include hm in
theorem create_ledger (i : Nat) {id : Identity} (hid : id ∈ S) (k : Nat) :
    ⦃fun c => ⌜Ledger m P K S c⌝⦄ create m i id k
    ⦃post⟨fun _ c => ⌜Ledger m P (insert id K) S c ∧ id ∉ K⌝, fun _ c => ⌜Ledger m P K S c⌝⟩⦄ := by
  have hstore := fun record => storeCreate_ledger m hm (P := P) (K := K) hid record
  mvcgen [create, encode, lift, ownWrite, onNode, attempt_wp, hstore]
  -- the hooks around the store call keep the object's identity, and the store call is counted
  -- as the node's own
  case vc1 =>
    have h := ‹Ledger m P K S _›
    exact (h.modifyObj_keeps k hm.beforePersist).ownWriteStep i id true
  case vc2 =>
    obtain ⟨h, hK⟩ := ‹Ledger m P (insert id K) S _ ∧ id ∉ K›
    exact ⟨(h.ownWriteStep i id false).modifyObj_keeps k fun o => hm.afterPersist o _, hK⟩
  case vc3 =>
    have h := ‹Ledger m P K S _›
    exact h.ownWriteStep i id false
  case vc4 =>
    have h := ‹Ledger m P K S _›
    exact h.modifyObj_keeps k hm.beforePersist

include hm in
theorem onCache_ledger (j : Nat) (f : Cache → (Nat → Bool) → Cache × List Nat) :
    ⦃fun c => ⌜Ledger m P K S c⌝⦄ onCache m j f
    ⦃post⟨fun _ c => ⌜Ledger m P K S c⌝, fun _ c => ⌜Ledger m P K S c⌝⟩⦄ := by
  have htell := tell_ledger m hm (P := P) (K := K) (S := S)
  mvcgen [onCache, htell]
  have h := ‹Ledger m P K S _›
  exact h.modifyNode j rfl

include hm in
theorem markUpdating_ledger (i : Nat) (id : Identity) (k : Nat) :
    ⦃fun c => ⌜Ledger m P K S c ∧ id ∈ S⌝⦄ markUpdating m i id k
    ⦃post⟨fun _ c => ⌜Ledger m P K S c⌝, fun _ c => ⌜Ledger m P K S c⌝⟩⦄ := by
  intro s hs
  simp only [SPred.down_pure] at hs
  obtain ⟨h, hid⟩ := hs
  have hcreate := create_ledger m hm (P := P) (K := K) i hid k
  have hinsert := onCache_ledger m hm (P := P) (K := K) (S := S) i
  mvcgen [markUpdating, onNode, hcreate, hinsert]
  case vc1 => exact h.modifyNode i rfl
  case vc5 => exact (‹Ledger m P (insert id K) S _ ∧ id ∉ K›).1.anti (Set.subset_insert _ _)

include hm in
theorem markUpdating_fresh (i : Nat) (id : Identity) (k : Nat) :
    ⦃fun c => ⌜Ledger m P K S c ∧ id ∈ S ∧
      ∀ e, (c.node i).cache.entryOf id = some e → e.inst ≠ k⌝⦄ markUpdating m i id k
    ⦃post⟨fun p c => ⌜Ledger m P (insert id K) S c ∧ id ∉ K ∧ p.2 = true⌝,
      fun _ c => ⌜Ledger m P K S c⌝⟩⦄ := by
  intro s hs
  simp only [SPred.down_pure] at hs
  obtain ⟨h, hid, hfresh⟩ := hs
  cases hmark : (s.node i).cache.markExisting id k s.now with
  | some r =>
    cases r with
    | ok p =>
      -- a cached entry of the identity holds another object
      obtain ⟨e, he, hinst, -⟩ := Cache.markExisting_spec hmark
      exact absurd hinst (hfresh e he)
    | error f =>
      mvcgen [markUpdating, hmark]
  | none =>
    have hcreate := create_ledger m hm (P := P) (K := K) i hid k
    have hinsert := onCache_ledger m hm (P := P) (K := insert id K) (S := S) i
    mvcgen [markUpdating, hmark, hcreate, hinsert]
    case vc3 => exact (‹Ledger m P (insert id K) S _ ∧ id ∉ K›).1
    case vc4 => exact ⟨‹Ledger m P (insert id K) S _›, (‹Ledger m P (insert id K) S _ ∧ id ∉ K›).2⟩
    case vc5 => exact fun h => h.anti (Set.subset_insert _ _)

include hm in
theorem fetch_ledger (j : Nat) (id : Identity) :
    ⦃fun c => ⌜Ledger m P K S c⌝⦄ fetch m j id
    ⦃post⟨fun _ c => ⌜Ledger m P K S c⌝, fun _ c => ⌜Ledger m P K S c⌝⟩⦄ := by
  have hload := load_ledger m hm (P := P) (K := K) (S := S) j id
  have hcache := onCache_ledger m hm (P := P) (K := K) (S := S) j
  mvcgen [fetch, lift, onNode, hload, hcache]
  -- a hit or a started load changes only the node's cache
  all_goals
    have h := ‹Ledger m P K S _›
    exact h.modifyNode j rfl

include hm in
theorem write_ledger (i : Nat) (id : Identity) :
    ⦃fun c => ⌜Good n c ∧ Ledger m P K S c⌝⦄ write m i id
    ⦃post⟨fun _ c => ⌜Ledger m P K S c⌝, fun _ c => ⌜Ledger m P K S c⌝⟩⦄ := by
  intro s hs
  simp only [SPred.down_pure] at hs
  obtain ⟨hgood, h⟩ := hs
  cases hb : (s.node i).cache.beginFlush id with
  | none => mvcgen [write, hb]
  | some p =>
    obtain ⟨cache, t⟩ := p
    obtain ⟨e, he, -, rfl, rfl⟩ := Cache.beginFlush_spec hb
    have hwb := writeBack_ledger m hm (P := P) (K := K) (S := S) i id e.inst
      ((hgood.caches i).version he)
    have hfan := fanOut_ledger m (P := P) (K := K) (S := S) (E := fun _ c => Ledger m P K S c)
    mvcgen [write, hb, onNode, attempt_wp, hwb, lift, peek, hfan]
    -- beginning and finishing the write change only the node's cache
    all_goals
      have h := ‹Ledger m P K S _›
      exact h.modifyNode i rfl

include hm in
theorem write_good_ledger (i : Nat) (id : Identity) (hi : i < n) :
    ⦃fun c => ⌜Good n c ∧ Ledger m P K S c⌝⦄ write m i id
    ⦃post⟨fun _ c => ⌜Good n c ∧ Ledger m P K S c⌝,
      fun _ c => ⌜Good n c ∧ Ledger m P K S c⌝⟩⦄ :=
  triple_and (triple_weaken (write_good m i id hi) fun _ h => h.1) (write_ledger m hm i id)

include hm in
theorem update_ledger (i k : Nat) (hi : i < n) :
    ⦃fun c => ⌜(Good n c ∧ 0 < k ∧ k ≤ c.objects.size) ∧ Ledger m P K S c⌝⦄ update m i k
    ⦃post⟨fun _ c => ⌜Good n c ∧ Ledger m P K S c⌝,
      fun _ c => ⌜Good n c ∧ Ledger m P K S c⌝⟩⦄ := by
  have hmark := fun id => triple_both (markUpdating_good m i id k hi)
    (markUpdating_ledger m hm (P := P) (K := K) (S := S) i id k)
  have hfan := fun id value => triple_both
    (fanOut_keeps (Φ := Good n) (E := fun _ c => Good n c) onRecords_good i .new id value)
    (fanOut_ledger m (P := P) (K := K) (S := S) (E := fun _ c => Ledger m P K S c) i .new id value)
  have hwrite := fun id => discard_keeps (write_good_ledger m hm (P := P) (K := K) (S := S) i id hi)
  mvcgen [update, identityFor, lift, hmark, hfan, hwrite, peek, onNode]
  case vc1 =>
    -- the object is of an identity of `S`
    obtain ⟨hk, h⟩ := ‹(Good n _ ∧ _) ∧ Ledger m P K S _›
    exact ⟨hk, h, h.identity_obj (by omega)⟩
  case vc3 =>
    -- a queued write only changes the node's flusher
    obtain ⟨hg, h⟩ := ‹Good n _ ∧ Ledger m P K S _›
    exact ⟨hg.node rfl rfl, h.modifyNode i rfl⟩
  case vc6 =>
    obtain ⟨⟨hg, -⟩, h⟩ := ‹(Good n _ ∧ _) ∧ Ledger m P K S _›
    exact ⟨hg, h⟩

include hm in
/-- **A change of a new object creates its identity.** When no cache entry of the object's
identity `x` holds the object, a change that goes through has created `x`, which was not stored
before and is kept from then on. -/
theorem update_fresh (i k : Nat) (hi : i < n) (x : Identity) :
    ⦃fun c => ⌜((Good n c ∧ 0 < k ∧ k ≤ c.objects.size) ∧ Ledger m P K S c) ∧
      m.identity (c.obj k) = x ∧ ∀ e, (c.node i).cache.entryOf x = some e → e.inst ≠ k⌝⦄
    update m i k
    ⦃post⟨fun _ c => ⌜Good n c ∧ Ledger m P (insert x K) S c ∧ x ∉ K⌝,
      fun _ c => ⌜Good n c ∧ Ledger m P K S c⌝⟩⦄ := by
  have hmark := fun id => triple_both (markUpdating_good m i id k hi)
    (markUpdating_fresh m hm (P := P) (K := K) (S := S) i id k)
  have hfan := fun id value => triple_both
    (fanOut_keeps (Φ := Good n) (E := fun _ c => Good n c) onRecords_good i .new id value)
    (fanOut_ledger m (P := P) (K := insert x K) (S := S)
      (E := fun _ c => Ledger m P (insert x K) S c) i .new id value)
  mvcgen [update, identityFor, lift, hmark, hfan, peek]
  case vc1 s hpre _ _ _ =>
    obtain ⟨⟨hk, h⟩, hx, hfresh⟩ := hpre
    exact ⟨hk, h, h.identity_obj (by omega), fun e he => hfresh e (hx ▸ he)⟩
  case vc2 s hpre id _ _ _ _ _ hpost =>
    have hx : id = x := hpre.2.1
    rw [hx] at hpost
    exact ⟨hpost.1, hpost.2.1⟩
  case vc3 s hpre id _ _ _ _ _ hpost _ _ hfanned =>
    have hx : id = x := hpre.2.1
    rw [hx] at hpost
    exact ⟨hfanned.1, hfanned.2, hpost.2.2.1⟩
  case vc4 => exact fun hg h => ⟨hg, h.anti (Set.subset_insert _ _)⟩
  -- the change created the identity, so it never reaches the flusher
  case vc5 _ _ _ _ _ _ hnc _ hpost _ _ _ _ | vc6 _ _ _ _ _ _ hnc _ hpost _ _ _ _
    | vc7 _ _ _ _ _ _ hnc _ hpost _ => exact absurd hpost.2.2.2 hnc
  case vc8 s hpre _ _ _ => exact ⟨hpre.1.1.1, hpre.1.2⟩

include hm in
theorem persist_ledger (i k : Nat) (hi : i < n) :
    ⦃fun c => ⌜(Good n c ∧ 0 < k ∧ k ≤ c.objects.size) ∧ Ledger m P K S c⌝⦄ persist m i k
    ⦃post⟨fun _ c => ⌜Good n c ∧ Ledger m P K S c⌝,
      fun _ c => ⌜Good n c ∧ Ledger m P K S c⌝⟩⦄ := by
  have hmark := fun id => triple_both (markUpdating_good m i id k hi)
    (markUpdating_ledger m hm (P := P) (K := K) (S := S) i id k)
  have hfan := fun id value => triple_both
    (fanOut_keeps (Φ := Good n) (E := fun _ c => Good n c) onRecords_good i .new id value)
    (fanOut_ledger m (P := P) (K := K) (S := S) (E := fun _ c => Ledger m P K S c) i .new id value)
  have hwrite := fun id => discard_keeps (write_good_ledger m hm (P := P) (K := K) (S := S) i id hi)
  mvcgen [persist, identityFor, lift, hmark, hfan, hwrite, peek, cancelPending, onNode]
  case vc1 =>
    -- the object is of an identity of `S`
    obtain ⟨hk, h⟩ := ‹(Good n _ ∧ _) ∧ Ledger m P K S _›
    exact ⟨hk, h, h.identity_obj (by omega)⟩
  case vc3 =>
    -- a cancelled write only changes the node's flusher
    obtain ⟨hg, h⟩ := ‹Good n _ ∧ Ledger m P K S _›
    exact ⟨hg.node rfl rfl, h.modifyNode i rfl⟩
  case vc4 =>
    obtain ⟨⟨hg, -⟩, h⟩ := ‹(Good n _ ∧ _) ∧ Ledger m P K S _›
    exact ⟨hg, h⟩

omit [Inhabited ω] in
theorem discardEntry_ledger (i : Nat) (id : Identity) :
    ⦃fun c => ⌜Ledger m P K S c⌝⦄ (discardEntry i id : ClusterOp ω Bool)
    ⦃post⟨fun _ c => ⌜Ledger m P K S c⌝, fun _ c => ⌜Ledger m P K S c⌝⟩⦄ := by
  have hdetach := detach_ledger (ω := ω) m (P := P) (K := K) (S := S) i id
  mvcgen [discardEntry, hdetach, cancelPending, onNode]
  have h := ‹Ledger m P K S _›
  exact h.modifyNode i rfl

end Ops

end Cluster

end Stowage
