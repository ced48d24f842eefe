import Mathlib
import Stowage.Proofs.Cluster.Ledger
/-!
What reads and drawn identities answer.

A read answers an object that exists: a hit answers the object its entry holds, which the cache
keeps among the objects, and a load answers the object it has just made. An identity a node
draws is of the node's kind and, where the node's settings ask for owners, owned by the node, so
the node sees it; drawing it changes only the node's key source, and the check for duplicates
only reads the store.
-/
open Std.Do

set_option mvcgen.warning false

namespace Stowage

open Stowage.Version

namespace Identity

theorem make_ok {kind key : String} {id : Identity} (h : make kind key = .ok id) :
    id.kind = kind ∧ id.owner = none := by
  unfold make at h
  cases hk : checkKind kind <;> cases hkey : checkKey key <;>
    simp only [hk, hkey, bind, Except.bind, pure, Except.pure, reduceCtorEq, Except.ok.injEq] at h
  subst h
  exact ⟨rfl, rfl⟩

theorem withOwner_ok {id id' : Identity} {owner : String} (h : id.withOwner owner = .ok id') :
    id'.kind = id.kind ∧ id'.owner = some owner := by
  unfold withOwner at h
  split_ifs at h
  cases h
  exact ⟨rfl, rfl⟩

end Identity

namespace Repository

/-- The node takes the identity as its own: of its kind, and visible to it. -/
def Admits (r : Repository) (id : Identity) : Prop := id.kind = r.kind ∧ r.visible id.owner = true

theorem visible_of_setup {r r' : Repository} (h : r.setup = r'.setup) (owner : Option String) :
    r.visible owner = r'.visible owner := by
  simp only [setup, Prod.mk.injEq] at h
  simp [visible, h.2.1, h.2.2]

theorem Admits.of_setup {r r' : Repository} {id : Identity} (h : r.Admits id)
    (hs : r'.setup = r.setup) : r'.Admits id :=
  ⟨h.1.trans (congrArg Prod.fst hs).symm, (visible_of_setup hs _).trans h.2⟩

theorem drawn_owned {r : Repository} {key : String} {id₁ id : Identity}
    (h₁ : Identity.make r.kind key = .ok id₁) (h : id₁.withOwner r.node = .ok id) :
    r.Admits id := by
  obtain ⟨hk₁, -⟩ := Identity.make_ok h₁
  obtain ⟨hk, ho⟩ := Identity.withOwner_ok h
  exact ⟨hk.trans hk₁, by simp [visible, ho]⟩

theorem drawn_bare {r : Repository} {key : String} {id : Identity}
    (h : Identity.make r.kind key = .ok id) : r.Admits id := by
  obtain ⟨hk, ho⟩ := Identity.make_ok h
  exact ⟨hk, by simp [visible, ho]⟩

end Repository

namespace Cache

theorem Within.inst_hit? {c c' : Cache} {k : Nat} (h : c.Within k) (hk : c.Keyed) {id : Identity}
    {now inst : Nat} (hh : c.hit? id now = some (c', inst)) : 0 < inst ∧ inst ≤ k := by
  unfold Cache.hit? Cache.lookup at hh
  split at hh
  · next e he =>
    split at hh
    · cases hh
    · simp only [Option.map_some, Option.some.injEq, Prod.mk.injEq] at hh
      rw [← hh.2, show (c.touch e now).2.inst = e.inst from rfl]
      -- touching an entry keeps its object
      exact h.inst hk he
  · cases hh

end Cache

namespace Backend

theorem findIds_ok {b : Backend} {q : Query} {ids : List Identity} (h : (b.findIds q).2 = .ok ids)
    (hq : q.limit = none) : ids = (b.records.filter fun p => q.selects p.1 p.2).map (·.1) := by
  by_cases hf : b.failures = 0
  · simp only [findIds, check_of_ready hf] at h
    split at h
    · cases h
    · simp only [hq, Except.ok.injEq] at h
      exact h.symm
  · simp [findIds, check_of_failing hf] at h

end Backend

namespace Cluster

variable {ω : Type} [Inhabited ω] (m : ObjectModel ω) {n : Nat}

omit [Inhabited ω] in
theorem onCache_size (j : Nat) (f : Cache → (Nat → Bool) → Cache × List Nat) (k : Nat) :
    ⦃fun c => ⌜k ≤ c.objects.size⌝⦄ onCache m j f
    ⦃post⟨fun _ c => ⌜k ≤ c.objects.size⌝, fun _ c => ⌜k ≤ c.objects.size⌝⟩⦄ := by
  have htell := tell_keeps m (Φ := fun c : Cluster ω => k ≤ c.objects.size)
    (fun _ _ _ _ _ hs h => h.trans hs)
  mvcgen [onCache, htell]

omit [Inhabited ω] in
/-- **A read answers an object that exists.** -/
theorem fetch_answers (i : Nat) (id : Identity) :
    ⦃fun c => ⌜Good n c⌝⦄ fetch m i id
    ⦃post⟨fun r c => ⌜∀ k ∈ r, 0 < k ∧ k ≤ c.objects.size⌝, fun _ _ => ⌜True⌝⟩⦄ := by
  have hload := load_spec m i id (Φ := fun _ => True) fun _ _ _ _ _ _ h => h
  have hcache := fun f k => onCache_size m i f k
  mvcgen [fetch, lift, onNode, hload, hcache]
  case vc1 | vc3 => simp
  case vc2 s hg _ _ _ _ _ k hhit _ =>
    -- a hit answers the object its entry holds
    simp only [Option.mem_def, Option.some.injEq, forall_eq']
    exact (hg.objects i).inst_hit? (hg.caches i).keyed hhit
  case vc4 =>
    -- a load answers the object it made, and the cache operation after it keeps the objects
    rename_i k v _ _ hloaded _ _ _ hsize
    obtain ⟨hpos, hk, -⟩ := hloaded.2 (k, v) rfl
    simp only [Option.mem_def, Option.some.injEq, forall_eq']
    exact ⟨hpos, hk.trans hsize⟩

omit [Inhabited ω] in
/-- **A search answers what the store holds.** Without a limit, a node's search answers the
stored identities of its kind that the query selects and that the node sees, and changes no
record and no node. -/
theorem findIds_spec (i : Nat) (q : Query) (hq : q.limit = none) (c₀ : Cluster ω) :
    ⦃fun c => ⌜c = c₀⌝⦄ (findIds i q : ClusterOp ω (List Identity))
    ⦃post⟨fun ids c => ⌜c.backend.records = c₀.backend.records ∧ c.nodes = c₀.nodes ∧
        q.kind = (c₀.node i).kind ∧
        ids = ((c₀.backend.records.filter fun p => q.selects p.1 p.2).map (·.1)).filter
          fun id => (c₀.node i).visible id.owner⌝, fun _ _ => ⌜True⌝⟩⦄ := by
  mvcgen [findIds, lift, onBackend]
  case vc1 s hs _ _ hkind _ _ _ _ _ hfind =>
    subst hs
    refine ⟨by simp, rfl, by simpa +zetaDelta using hkind, ?_⟩
    rw [Backend.findIds_ok hfind hq]

section Draw

/-- What drawing an identity on node `i` changes: the node's key source, and what the store
counts of reads. `Φ` survives both and fixes the node's setup to `p`. -/
structure Draws (i : Nat) (p : String × String × PersisterSettings) (Φ : Cluster ω → Prop) :
    Prop where
  setup : ∀ c, Φ c → (c.node i).setup = p
  keys : ∀ c (keys : KeySource), Φ c → Φ (c.modifyNode i fun r => { r with keys })
  read : ∀ c (b : Backend), b.records = c.backend.records → Φ c → Φ { c with backend := b }

variable {Φ : Cluster ω → Prop} {i : Nat} {p : String × String × PersisterSettings}

omit [Inhabited ω] in
theorem stored_keeps (hΦ : Draws i p Φ) (id : Identity) :
    ⦃fun c => ⌜Φ c⌝⦄ (stored i id : ClusterOp ω Bool) ⦃post⟨fun _ c => ⌜Φ c⌝, fun _ c => ⌜Φ c⌝⟩⦄ := by
  mvcgen [stored, onBackend, lift]
  all_goals exact hΦ.read _ _ (by simp) ‹Φ _›

omit [Inhabited ω] in
/-- **A drawn identity is of the node's kind, and the node sees it.** -/
theorem freshId_spec (hΦ : Draws i p Φ) (pfx : String) (tries : Nat) :
    ⦃fun c => ⌜Φ c⌝⦄ (freshId i pfx tries : ClusterOp ω (Option Identity))
    ⦃post⟨fun r c => ⌜Φ c ∧ ∀ id ∈ r, (c.node i).Admits id⌝, fun _ c => ⌜Φ c⌝⟩⦄ := by
  induction tries with
  | zero =>
    mvcgen [freshId]
    exact ⟨‹Φ _›, by simp⟩
  | succ tries ih =>
    intro s hs
    simp only [SPred.down_pure] at hs
    have hstored := stored_keeps hΦ
    -- the node keeps its setup throughout the turn, so it admits at the end an identity drawn
    -- from it as it was
    have hdrawn : ∀ c, Φ c → ∀ id : Identity, (s.node i).Admits id →
        Φ c ∧ ∀ x ∈ some id, (c.node i).Admits x := by
      intro c hc id hid
      refine ⟨hc, ?_⟩
      simp only [Option.mem_def, Option.some.injEq, forall_eq']
      exact hid.of_setup ((hΦ.setup c hc).trans (hΦ.setup s hs).symm)
    have hkeys := hΦ.keys s
    mvcgen [freshId, onNode, hstored, ih]
    -- answered without asking the store, or after the store said it holds no such record
    case vc1 => exact hdrawn _ (hkeys _ hs) _ (Repository.drawn_owned ‹_› ‹_›)
    case vc3 => exact hdrawn _ ‹Φ _› _ (Repository.drawn_owned ‹_› ‹_›)
    case vc7 => exact hdrawn _ (hkeys _ hs) _ (Repository.drawn_bare ‹_›)
    case vc9 => exact hdrawn _ ‹Φ _› _ (Repository.drawn_bare ‹_›)
    all_goals exact hkeys _ hs

omit [Inhabited ω] in
theorem newId_spec (hΦ : Draws i p Φ) (pfx : String) :
    ⦃fun c => ⌜Φ c⌝⦄ (newId i pfx : ClusterOp ω Identity)
    ⦃post⟨fun id c => ⌜Φ c ∧ (c.node i).Admits id⌝, fun _ c => ⌜Φ c⌝⟩⦄ := by
  have hfresh := freshId_spec hΦ pfx
  mvcgen [newId, hfresh]
  case vc2 _ _ _ _ id _ _ h => exact ⟨h.1, h.2 id rfl⟩
  case vc3 _ _ _ _ _ _ h => exact h.1

end Draw

end Cluster

end Stowage
