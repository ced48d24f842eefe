import Mathlib
import Stowage.Proofs.Cluster.Answers
import Stowage.Proofs.Cluster.Events
import Stowage.Proofs.Identity.Text
/-!
Drawing new identities.

A node asks its key source for up to `max idRetries 1` keys, and each key decides or is taken. A
key that is empty or holds `@` is refused. Otherwise the candidate is the node's kind, the key
and, for a node that claims what it makes, the node as owner. Without duplicate checks the
candidate is answered; with them a cached candidate is taken, and otherwise the store decides:
its check fails, or it holds the candidate (taken), or it does not (answered). A new identity is
the decision of the first key that decides, or, when every key is taken, the fault that all
attempts were used; the key source has moved on by the keys drawn up to that one.
-/
open Std.Do

set_option mvcgen.warning false

namespace Stowage

namespace KeySource

/-- The keys a source hands out in `n` draws behind a prefix, in order. -/
def draws (k : KeySource) (pfx : String) : Nat → List String
  | 0 => []
  | n + 1 => (k.next pfx).2 :: (k.next pfx).1.draws pfx n

@[simp] theorem next_fst (k : KeySource) (pfx : String) :
    (k.next pfx).1 = { k with issued := k.issued + 1 } := rfl

@[simp] theorem length_draws (k : KeySource) (pfx : String) (n : Nat) :
    (k.draws pfx n).length = n := by
  induction n generalizing k with
  | zero => rfl
  | succ n ih => simp [draws, ih]

end KeySource

namespace Identity

theorem make_of_kind {kind : String} (hkind : kind ≠ "" ∧ ':' ∉ kind.toList) (key : String) :
    make kind key = if key = "" then .error .emptyKey
      else if '@' ∈ key.toList then .error (.invalidChar '@') else .ok ⟨kind, key, none⟩ := by
  rw [make_eq, checkKind_eq, if_neg hkind.1, if_neg hkind.2, checkKey_eq]
  split_ifs <;> rfl

end Identity

namespace Backend

variable {b : Backend} {id : Identity}

theorem exists?_fst_of_ok {x : Bool} (h : (b.exists? id).2 = .ok x) : (b.exists? id).1 = b := by
  by_cases hf : b.failures = 0
  · simp [exists?, check_of_ready hf]
  · simp [exists?, check_of_failing hf] at h

theorem exists?_error {f : Fault} (h : (b.exists? id).2 = .error f) :
    f = .backend "injected failure" := by
  by_cases hf : b.failures = 0
  · simp [exists?, check_of_ready hf] at h
  · simp only [exists?, check_of_failing hf, Except.error.injEq] at h
    exact h.symm

theorem load_as_exists? (b : Backend) (id : Identity) :
    (b.load id).1 = (b.exists? id).1 ∧ (b.load id).2.map Option.isSome = (b.exists? id).2 := by
  by_cases hf : b.failures = 0
  · simp [load, exists?, check_of_ready hf, Except.map]
  · simp [load, exists?, check_of_failing hf, Except.map]

end Backend

namespace Repository

/-- The identity a node makes of a key: its kind, the key, and the node as owner when the node
claims what it makes. -/
def candidate (r : Repository) (key : String) : Identity :=
  ⟨r.kind, key, if r.settings.ownerOnly then some r.node else none⟩

/-- What a drawn key decides, or `none` when the key is taken and the node draws again. -/
def verdict (r : Repository) (b : Backend) (key : String) : Option (Outcome Identity) :=
  if key = "" then some (.error (Fault.ofIdentity .emptyKey))
  else if '@' ∈ key.toList then some (.error (Fault.ofIdentity (.invalidChar '@')))
  else if r.settings.checkDuplicateIds = false then some (.ok (r.candidate key))
  else if r.cache.contains (r.candidate key) then none
  else match (b.exists? (r.candidate key)).2 with
    | .error f => some (.error f)
    | .ok present => if present then none else some (.ok (r.candidate key))

/-- How many keys a node draws for a new identity: its retry setting, at least one. -/
def attempts (r : Repository) : Nat := max r.settings.idRetries 1

/-- What drawing from `keys` answers: the first decision, `none` when every key is taken. -/
def drawOutcome (r : Repository) (b : Backend) (keys : List String) : Outcome (Option Identity) :=
  ((keys.findSome? (r.verdict b)).map (Except.map some)).getD (.ok none)

/-- How many of `keys` drawing uses: those up to the first that decides. -/
def drawCount (r : Repository) (b : Backend) (keys : List String) : Nat :=
  min (keys.findIdx (fun key => (r.verdict b key).isSome) + 1) keys.length

/-- What a node answers when asked for a new identity: the decision of the first key it draws
that decides, or, when every key is taken, that all attempts were used. -/
def newIdOutcome (r : Repository) (b : Backend) (pfx : String) : Outcome Identity :=
  ((r.keys.draws pfx r.attempts).findSome? (r.verdict b)).getD (.error (.idDuplicate r.attempts))

/-- What asking for a new identity answers from what drawing answers: the drawn identity, or,
when every key was taken, that all `attempts` were used. -/
def settleDraw (attempts : Nat) : Outcome (Option Identity) → Outcome Identity
  | .ok (some id) => .ok id
  | .ok none => .error (.idDuplicate attempts)
  | .error f => .error f

@[simp] theorem verdict_keys (r : Repository) (k : KeySource) :
    verdict { r with keys := k } = r.verdict := rfl

@[simp] theorem drawOutcome_keys (r : Repository) (k : KeySource) :
    drawOutcome { r with keys := k } = r.drawOutcome := rfl

@[simp] theorem drawCount_keys (r : Repository) (k : KeySource) :
    drawCount { r with keys := k } = r.drawCount := rfl

theorem drawOutcome_cons_some {r : Repository} {b : Backend} {key : String} {keys : List String}
    {o : Outcome Identity} (h : r.verdict b key = some o) :
    r.drawOutcome b (key :: keys) = o.map some := by
  simp [drawOutcome, h]

theorem drawOutcome_cons_none {r : Repository} {b : Backend} {key : String} {keys : List String}
    (h : r.verdict b key = none) : r.drawOutcome b (key :: keys) = r.drawOutcome b keys := by
  simp [drawOutcome, h]

theorem drawCount_cons_some {r : Repository} {b : Backend} {key : String} {keys : List String}
    {o : Outcome Identity} (h : r.verdict b key = some o) : r.drawCount b (key :: keys) = 1 := by
  simp [drawCount, List.findIdx_cons, h]

theorem drawCount_cons_none {r : Repository} {b : Backend} {key : String} {keys : List String}
    (h : r.verdict b key = none) : r.drawCount b (key :: keys) = r.drawCount b keys + 1 := by
  simp [drawCount, List.findIdx_cons, h]

theorem drawCount_le (r : Repository) (b : Backend) (keys : List String) :
    r.drawCount b keys ≤ keys.length :=
  Nat.min_le_right _ _

theorem newIdOutcome_eq_settleDraw (r : Repository) (b : Backend) (pfx : String) :
    r.newIdOutcome b pfx =
      settleDraw r.attempts (r.drawOutcome b (r.keys.draws pfx r.attempts)) := by
  unfold newIdOutcome drawOutcome
  cases (r.keys.draws pfx r.attempts).findSome? (r.verdict b) with
  | none => rfl
  | some o => cases o <;> rfl

theorem verdict_ne_idDuplicate (r : Repository) (b : Backend) (key : String) (n : Nat) :
    r.verdict b key ≠ some (.error (.idDuplicate n)) := by
  unfold verdict
  split_ifs
  · simp [Fault.ofIdentity]
  · simp [Fault.ofIdentity]
  · simp
  · simp
  · -- what the store answers
    split
    · next f hf => simp [Backend.exists?_error hf]
    · split <;> simp

theorem newIdOutcome_eq_idDuplicate_iff (r : Repository) (b : Backend) (pfx : String) :
    r.newIdOutcome b pfx = .error (.idDuplicate r.attempts) ↔
      ∀ key ∈ r.keys.draws pfx r.attempts, r.verdict b key = none := by
  unfold newIdOutcome
  cases h : (r.keys.draws pfx r.attempts).findSome? (r.verdict b) with
  | none => simpa [List.findSome?_eq_none_iff] using h
  | some o =>
    obtain ⟨key, hkey, hv⟩ := List.exists_of_findSome?_eq_some h
    simp only [Option.getD_some]
    constructor
    · rintro rfl
      exact absurd hv (verdict_ne_idDuplicate r b key _)
    · intro hall
      simp [hall key hkey] at hv

variable {r : Repository} {b : Backend} {key : String} {id : Identity}

/-- `key` passes the checks, and the node makes `id` of it: the candidate. -/
def Makes (r : Repository) (key : String) (id : Identity) : Prop :=
  (key ≠ "" ∧ '@' ∉ key.toList) ∧ id = r.candidate key

theorem made_bare (h : Identity.make r.kind key = .ok id) (hown : ¬r.settings.ownerOnly = true) :
    r.Makes key id := by
  obtain ⟨rfl, -, -, hne, hat⟩ := Identity.make_eq_ok_iff.mp h
  exact ⟨⟨hne, hat⟩, by simp [candidate, hown]⟩

theorem made_owned {id₁ : Identity} (h₁ : Identity.make r.kind key = .ok id₁)
    (hown : r.settings.ownerOnly = true) (h : id₁.withOwner r.node = .ok id) :
    r.Makes key id := by
  obtain ⟨rfl, -, -, hne, hat⟩ := Identity.make_eq_ok_iff.mp h₁
  obtain ⟨rfl, -, -⟩ := Identity.withOwner_eq_ok_iff.mp h
  exact ⟨⟨hne, hat⟩, by simp [candidate, hown]⟩

theorem withOwner_node (hnode : r.node ≠ "" ∧ '@' ∉ r.node.toList) {e : IdentityError} :
    id.withOwner r.node ≠ .error e := by
  simp [Identity.withOwner_eq, hnode.1, hnode.2]

theorem verdict_refused (hkind : r.kind ≠ "" ∧ ':' ∉ r.kind.toList) {e : IdentityError}
    (h : Identity.make r.kind key = .error e) :
    r.verdict b key = some (.error (Fault.ofIdentity e)) := by
  rw [Identity.make_of_kind hkind] at h
  unfold verdict
  split_ifs at h ⊢ <;> cases h <;> rfl

section Made

/-! ### What a key that makes an identity decides -/

variable (hm : r.Makes key id)
include hm

theorem verdict_unchecked (h : (!r.settings.checkDuplicateIds) = true) :
    r.verdict b key = some (.ok id) := by
  obtain ⟨⟨hne, hat⟩, rfl⟩ := hm
  simp_all [verdict]

theorem verdict_cached (h : ¬(!r.settings.checkDuplicateIds) = true)
    (hc : ¬(!r.cache.contains id) = true) : r.verdict b key = none := by
  obtain ⟨⟨hne, hat⟩, rfl⟩ := hm
  simp_all [verdict]

theorem verdict_failed (h : ¬(!r.settings.checkDuplicateIds) = true)
    (hc : (!r.cache.contains id) = true) {f : Fault} (hf : (b.exists? id).2 = .error f) :
    r.verdict b key = some (.error f) := by
  obtain ⟨⟨hne, hat⟩, rfl⟩ := hm
  simp_all [verdict]

theorem verdict_stored (h : ¬(!r.settings.checkDuplicateIds) = true)
    (hc : (!r.cache.contains id) = true) {present : Bool} (hs : (b.exists? id).2 = .ok present)
    (hp : ¬(!present) = true) : r.verdict b key = none := by
  obtain ⟨⟨hne, hat⟩, rfl⟩ := hm
  simp_all [verdict]

theorem verdict_free (h : ¬(!r.settings.checkDuplicateIds) = true)
    (hc : (!r.cache.contains id) = true) {present : Bool} (hs : (b.exists? id).2 = .ok present)
    (hp : (!present) = true) : r.verdict b key = some (.ok id) := by
  obtain ⟨⟨hne, hat⟩, rfl⟩ := hm
  simp_all [verdict]

end Made

end Repository

namespace Cluster

variable {ω : Type}

/-! ### Exact triples -/

theorem triple_run {β : Type} (op : ClusterOp ω β) (c₀ : Cluster ω) :
    ⦃fun c => ⌜c = c₀⌝⦄ op
    ⦃post⟨fun a c => ⌜(.ok a, c) = op.run.run c₀⌝,
      fun f c => ⌜(.error f, c) = op.run.run c₀⌝⟩⦄ := by
  refine triple_iff.mpr fun c hc => ?_
  subst hc
  rcases op.run.run c with ⟨_ | _, _⟩ <;> rfl

theorem run_of_triple {β : Type} {op : ClusterOp ω β} {c₀ : Cluster ω}
    {R : Outcome β × Cluster ω → Prop}
    (h : ⦃fun c => ⌜c = c₀⌝⦄ op
      ⦃post⟨fun a c => ⌜R (.ok a, c)⌝, fun f c => ⌜R (.error f, c)⌝⟩⦄) :
    R (op.run.run c₀) := by
  have hend := triple_iff.mp h c₀ rfl
  revert hend
  rcases op.run.run c₀ with ⟨_ | _, _⟩ <;> exact id

theorem stored_exact (c₀ : Cluster ω) (i : Nat) (id : Identity) :
    ⦃fun c => ⌜c = c₀⌝⦄ (stored i id : ClusterOp ω Bool)
    ⦃post⟨fun b c => ⌜(c₀.backend.exists? id).2 = .ok b ∧
        c = { c₀ with backend := (c₀.backend.exists? id).1 }⌝,
      fun f c => ⌜(c₀.backend.exists? id).2 = .error f ∧
        c = { c₀ with backend := (c₀.backend.exists? id).1 }⌝⟩⦄ := by
  mvcgen [stored, onBackend, lift]
  case vc1 s hs _ _ hload | vc2 s hs _ _ hload =>
    -- a narrow node loads the record, which is the same call to the store
    subst hs
    obtain ⟨hfst, hsnd⟩ := Backend.load_as_exists? s.backend id
    rw [← hsnd, hload, hfst]
    exact ⟨rfl, rfl⟩
  case vc3 hex | vc4 hex =>
    subst_vars
    exact ⟨hex, rfl⟩

/-! ### One draw -/

/-- The cluster after node `i` draws a key behind `pfx`. -/
def advance (c : Cluster ω) (i : Nat) (pfx : String) : Cluster ω :=
  c.modifyNode i fun r => { r with keys := ((c.node i).keys.next pfx).1 }

/-- Where a run of `tries + 1` draws from `c` ends, after its first key: at that key's
decision, with the node's key source moved on, or, when the key is taken, where the remaining
draws end. -/
def Drawn (c : Cluster ω) (i : Nat) (pfx : String) (tries : Nat)
    (res : Outcome (Option Identity) × Cluster ω) : Prop :=
  (∃ o, (c.node i).verdict c.backend ((c.node i).keys.next pfx).2 = some o ∧
      res.1 = o.map some ∧ res.2.nodes = (c.advance i pfx).nodes) ∨
    ((c.node i).verdict c.backend ((c.node i).keys.next pfx).2 = none ∧
      res = (freshId i pfx tries).run.run (c.advance i pfx))

theorem advance_node {c : Cluster ω} {i : Nat} (pfx : String) (hi : i < c.nodes.length) :
    (c.advance i pfx).node i = { c.node i with keys := ((c.node i).keys.next pfx).1 } := by
  simp [advance, hi]

section Drawn

variable {c : Cluster ω} {i : Nat} {pfx : String} {tries : Nat}
  {res : Outcome (Option Identity) × Cluster ω}

theorem advance_cache (hi : i < c.nodes.length) :
    ((c.advance i pfx).node i).cache = (c.node i).cache := by
  rw [advance_node pfx hi]

theorem Drawn.decided {o : Outcome Identity}
    (hv : (c.node i).verdict c.backend ((c.node i).keys.next pfx).2 = some o)
    (hres : res.1 = o.map some) (hn : res.2.nodes = (c.advance i pfx).nodes) :
    Drawn c i pfx tries res :=
  .inl ⟨o, hv, hres, hn⟩

theorem Drawn.taken (hv : (c.node i).verdict c.backend ((c.node i).keys.next pfx).2 = none)
    (hres : res = (freshId i pfx tries).run.run (c.advance i pfx)) : Drawn c i pfx tries res :=
  .inr ⟨hv, hres⟩

end Drawn

open Repository in
/-- **One draw.** Drawing from a node with a valid kind, and a valid name where it claims what
it makes, ends at the first key's decision, or where the remaining draws end when it is taken. -/
theorem freshId_drawn (i : Nat) (pfx : String) (tries : Nat) (c₀ : Cluster ω)
    (hi : i < c₀.nodes.length)
    (hkind : (c₀.node i).kind ≠ "" ∧ ':' ∉ (c₀.node i).kind.toList)
    (hnode : (c₀.node i).settings.ownerOnly = true →
      (c₀.node i).node ≠ "" ∧ '@' ∉ (c₀.node i).node.toList) :
    ⦃fun c => ⌜c = c₀⌝⦄ (freshId i pfx (tries + 1) : ClusterOp ω (Option Identity))
    ⦃post⟨fun a c => ⌜Drawn c₀ i pfx tries (.ok a, c)⌝,
      fun f c => ⌜Drawn c₀ i pfx tries (.error f, c)⌝⟩⦄ := by
  have hstored := stored_exact (ω := ω)
  have hrest := triple_run (freshId i pfx tries : ClusterOp ω _) (c₀.advance i pfx)
  intro s hs
  simp only [SPred.down_pure] at hs
  subst hs
  mvcgen [freshId, onNode, hstored, hrest]
  -- the node claims what it makes
  case vc1 =>
    exact .decided (verdict_unchecked (made_owned ‹_› ‹_› ‹_›) ‹_›) rfl rfl
  case vc2 hcache _ hfree _ hstored =>
    obtain ⟨hex, rfl⟩ := hstored
    exact .decided (verdict_free (made_owned ‹_› ‹_› ‹_›) ‹_›
      (advance_cache hi ▸ hcache) hex hfree) rfl rfl
  case vc3 hstored | vc13 hstored =>
    -- the store holds the candidate: the draws go on from the advanced cluster
    obtain ⟨hex, rfl⟩ := hstored
    rw [Backend.exists?_fst_of_ok hex]
    rfl
  case vc4 hcache _ htaken _ hstored _ _ | vc5 hcache _ htaken _ hstored _ _ =>
    exact fun hres => .taken (verdict_stored (made_owned ‹_› ‹_› ‹_›) ‹_›
      (advance_cache hi ▸ hcache) hstored.1 htaken) hres
  case vc6 hcache _ _ =>
    rintro hex rfl
    exact .decided (verdict_failed (made_owned ‹_› ‹_› ‹_›) ‹_›
      (advance_cache hi ▸ hcache) hex) rfl rfl
  case vc8 hcache _ _ | vc9 hcache _ _ =>
    exact fun hres => .taken (verdict_cached (made_owned ‹_› ‹_› ‹_›) ‹_›
      (advance_cache hi ▸ hcache)) hres
  case vc10 hown _ hwith =>
    exact absurd hwith (withOwner_node (hnode hown))
  -- the node claims nothing
  case vc11 =>
    exact .decided (verdict_unchecked (made_bare ‹_› ‹_›) ‹_›) rfl rfl
  case vc12 hcache _ hfree _ hstored =>
    obtain ⟨hex, rfl⟩ := hstored
    exact .decided (verdict_free (made_bare ‹_› ‹_›) ‹_›
      (advance_cache hi ▸ hcache) hex hfree) rfl rfl
  case vc14 hcache _ htaken _ hstored _ _ | vc15 hcache _ htaken _ hstored _ _ =>
    exact fun hres => .taken (verdict_stored (made_bare ‹_› ‹_›) ‹_›
      (advance_cache hi ▸ hcache) hstored.1 htaken) hres
  case vc16 hcache _ _ =>
    rintro hex rfl
    exact .decided (verdict_failed (made_bare ‹_› ‹_›) ‹_›
      (advance_cache hi ▸ hcache) hex) rfl rfl
  case vc18 hcache _ _ | vc19 hcache _ _ =>
    exact fun hres => .taken (verdict_cached (made_bare ‹_› ‹_›) ‹_›
      (advance_cache hi ▸ hcache)) hres
  -- the key fails its checks
  case vc20 _ hmake =>
    exact .decided (verdict_refused hkind hmake) rfl rfl

/-! ### Every draw -/

/-- **Drawing keys.** A node with a valid kind, and a valid name where it claims what it
makes, answers the decision of the first key of `tries` draws that decides, `none` when every
key is taken; its key source moves on by the keys drawn up to that one. -/
theorem freshId_run {c : Cluster ω} {i : Nat} (pfx : String) (hi : i < c.nodes.length)
    (hkind : (c.node i).kind ≠ "" ∧ ':' ∉ (c.node i).kind.toList)
    (hnode : (c.node i).settings.ownerOnly = true →
      (c.node i).node ≠ "" ∧ '@' ∉ (c.node i).node.toList) (tries : Nat) :
    ((freshId i pfx tries).run.run c).1 =
        (c.node i).drawOutcome c.backend ((c.node i).keys.draws pfx tries) ∧
      (((freshId i pfx tries).run.run c).2.node i).keys = { (c.node i).keys with
        issued := (c.node i).keys.issued +
          (c.node i).drawCount c.backend ((c.node i).keys.draws pfx tries) } := by
  induction tries generalizing c with
  | zero => exact ⟨rfl, rfl⟩
  | succ n ih =>
    have hadv := advance_node pfx hi
    rcases run_of_triple (freshId_drawn i pfx n c hi hkind hnode) with
      ⟨o, hv, hres, hn⟩ | ⟨hv, hres⟩
    · -- the first key decides
      refine ⟨by rw [hres, KeySource.draws, Repository.drawOutcome_cons_some hv], ?_⟩
      rw [node_eq_of_nodes hn, hadv, KeySource.draws, Repository.drawCount_cons_some hv]
      rfl
    · -- the first key is taken, and the draws go on from the advanced cluster
      obtain ⟨hout, hkeys⟩ := ih (c := c.advance i pfx) (by simpa [advance] using hi)
        (by simpa [hadv] using hkind) (by simpa [hadv] using hnode)
      rw [hres, hout, hkeys, hadv]
      refine ⟨by simp [KeySource.draws, Repository.drawOutcome_cons_none hv, advance], ?_⟩
      simp [KeySource.draws, Repository.drawCount_cons_none hv, advance]
      omega
theorem newId_exact (i : Nat) (pfx : String) (c₀ : Cluster ω) :
    ⦃fun c => ⌜c = c₀⌝⦄ (newId i pfx : ClusterOp ω Identity)
    ⦃post⟨fun id c => ⌜(Repository.settleDraw (c₀.node i).attempts
          ((freshId i pfx (c₀.node i).attempts).run.run c₀).1,
        ((freshId i pfx (c₀.node i).attempts).run.run c₀).2) = (.ok id, c)⌝,
      fun f c => ⌜(Repository.settleDraw (c₀.node i).attempts
          ((freshId i pfx (c₀.node i).attempts).run.run c₀).1,
        ((freshId i pfx (c₀.node i).attempts).run.run c₀).2) = (.error f, c)⌝⟩⦄ := by
  have hrest :=
    triple_run (freshId i pfx (max (c₀.node i).settings.idRetries 1) : ClusterOp ω _) c₀
  intro s hs
  simp only [SPred.down_pure] at hs
  subst hs
  mvcgen [newId, hrest]
  case vc1 hrun | vc2 hrun =>
    rw [Repository.attempts, ← hrun]
    rfl
  case vc3 =>
    intro hrun
    rw [Repository.attempts, ← hrun]
    rfl

/-- **A new identity is the first free candidate.** Asked for a new identity, a node whose kind
passes its checks, and whose name does where it claims what it makes, draws at most
`max idRetries 1` keys and answers the decision of the first key that decides: a refusal for a
key that is empty or holds `@`; the store's fault when its check fails; or the candidate (the
node's kind, the key, and the node as owner where it claims what it makes) when duplicates are
not checked or the candidate is neither cached nor stored. It fails for want of a free key
exactly when every drawn key was taken, and its key source has moved on by the keys drawn. -/
theorem newId_first_free (c : Cluster ω) (i : Nat) (pfx : String) (hi : i < c.nodes.length)
    (hkind : (c.node i).kind ≠ "" ∧ ':' ∉ (c.node i).kind.toList)
    (hnode : (c.node i).settings.ownerOnly = true →
      (c.node i).node ≠ "" ∧ '@' ∉ (c.node i).node.toList) :
    ((newId i pfx).run.run c).1 = (c.node i).newIdOutcome c.backend pfx ∧
      (((newId i pfx).run.run c).1 = .error (.idDuplicate (c.node i).attempts) ↔
        ∀ key ∈ (c.node i).keys.draws pfx (c.node i).attempts,
          (c.node i).verdict c.backend key = none) ∧
      (((newId i pfx).run.run c).2.node i).keys = { (c.node i).keys with
        issued := (c.node i).keys.issued +
          (c.node i).drawCount c.backend ((c.node i).keys.draws pfx (c.node i).attempts) } ∧
      (c.node i).drawCount c.backend ((c.node i).keys.draws pfx (c.node i).attempts) ≤
        (c.node i).attempts := by
  obtain ⟨hout, hkeys⟩ := freshId_run pfx hi hkind hnode (c.node i).attempts
  have hrun := run_of_triple (newId_exact i pfx c)
  have hanswer : ((newId i pfx).run.run c).1 = (c.node i).newIdOutcome c.backend pfx := by
    rw [← hrun, hout, Repository.newIdOutcome_eq_settleDraw]
  refine ⟨hanswer, hanswer ▸ Repository.newIdOutcome_eq_idDuplicate_iff _ _ _, ?_, ?_⟩
  · rw [← hrun, hkeys]
  · simpa using Repository.drawCount_le (c.node i) c.backend
      ((c.node i).keys.draws pfx (c.node i).attempts)

/-- Node `n1`, which claims what it makes and draws up to two counted keys. -/
def drawingNode : Repository :=
  { (default : Repository) with
    kind := "doc", node := "n1", settings := { ownerOnly := true, idRetries := 2 },
    keys := KeySource.start .counting }

/-- Node `n1` alone, with `doc:1@n1` already stored. -/
def drawingCluster : Cluster Nat :=
  ⟨⟨[(⟨"doc", "1", some "n1"⟩, Record.empty)], 0, 0, []⟩, [drawingNode],
    #[], [], [], [], 0, 0⟩

/-- The first key makes `doc:1@n1`, which is stored, so node `n1` answers `doc:2@n1`. -/
theorem newId_skips_stored :
    (0 < drawingCluster.nodes.length ∧
      ((drawingCluster.node 0).kind ≠ "" ∧ ':' ∉ (drawingCluster.node 0).kind.toList) ∧
      ((drawingCluster.node 0).settings.ownerOnly = true →
        (drawingCluster.node 0).node ≠ "" ∧ '@' ∉ (drawingCluster.node 0).node.toList)) ∧
      ((newId 0 "").run.run drawingCluster).1 = .ok ⟨"doc", "2", some "n1"⟩ := by
  have hi : 0 < drawingCluster.nodes.length := by decide
  have hkind :
      (drawingCluster.node 0).kind ≠ "" ∧ ':' ∉ (drawingCluster.node 0).kind.toList := by
    decide
  have hnode : (drawingCluster.node 0).settings.ownerOnly = true →
      (drawingCluster.node 0).node ≠ "" ∧ '@' ∉ (drawingCluster.node 0).node.toList := by
    decide
  exact ⟨⟨hi, hkind, hnode⟩,
    (newId_first_free drawingCluster 0 "" hi hkind hnode).1.trans rfl⟩

end Cluster
end Stowage
