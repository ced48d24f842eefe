import Mathlib
import Stowage.Proofs.Soak.Fleet
/-!
A soak run that finishes reports a healthy store.

The nodes start as they are built, sharing an empty store. The first node then creates the
accounts one by one: each is an identity it draws, of its kind and visible to it, and its
creation stores an identity that was not stored, so the accounts are all different and all
stored, and nothing else is. The nodes' operations, their closing and the throwing away of
stranded accounts keep the run sound (`Fleet`). At the end the store holds exactly the
accounts, in identity order, so a search for accounts finds as many as were created; and every
stored lineage is within the cap, so none breaks it.
-/
open Std.Do

set_option mvcgen.warning false

namespace Stowage

open Stowage.Version

namespace Cluster

variable {ω : Type} {c : Cluster ω} {r : Repository} {k M : Nat}

theorem node_push (j : Nat) :
    ({ c with nodes := c.nodes ++ [r] } : Cluster ω).node j =
      if j = c.nodes.length then r else c.node j := by
  unfold node
  rcases lt_trichotomy j c.nodes.length with hj | rfl | hj
  · rw [if_neg hj.ne, List.getD_append _ _ _ _ hj]
  · simp
  · rw [if_neg hj.ne', List.getD_eq_default _ _ (by simp; omega),
      List.getD_eq_default _ _ hj.le]

theorem Good.push (h : Good k c) (hr : Tag.NodeValid r.node) (hcache : r.cache.entries = []) :
    Good (k + 1) { c with nodes := c.nodes ++ [r] } where
  size := by simp [h.size]
  stored := h.stored
  caches j := by
    rw [node_push]
    split
    exacts [(Cache.stamped_empty 0 none).of_entries hcache, h.caches j]
  ids j hj := by
    rw [node_push]
    split
    · exact hr
    · exact h.ids j (by rw [h.size] at *; omega)
  objects j := by
    rw [node_push]
    split
    exacts [(Cache.within_empty 0 none).of_entries hcache, h.objects j]

theorem Capped.push (h : Capped k M c) (hk : c.nodes.length = k) (hmax : r.maxRun = M)
    (hcache : r.cache.entries = []) : Capped (k + 1) M { c with nodes := c.nodes ++ [r] } where
  maxRun j hj := by
    rw [node_push]
    split
    · exact hmax
    · exact h.maxRun j (by omega)
  stored := h.stored
  cached j := by
    rw [node_push]
    split
    exacts [.nil hcache, h.cached j]

theorem addListener_records (i : Nat) (name : String) (rs : List (Identity × Record))
    (os : Array ω) :
    ⦃fun c => ⌜c.backend.records = rs ∧ c.objects = os⌝⦄ (addListener i name : ClusterOp ω Nat)
    ⦃post⟨fun _ c => ⌜c.backend.records = rs ∧ c.objects = os⌝,
      fun _ c => ⌜c.backend.records = rs ∧ c.objects = os⌝⟩⦄ := by
  mvcgen [addListener, onNode]

end Cluster

namespace Soak

open Stowage.Cluster

/-- **The nodes of a run as they start**: `count` of them, or one, under valid node ids and
writing under the configured cap, with empty caches, sharing an empty store, with no objects
yet. -/
theorem startNodes_ok {s : Settings} {count : Nat} {c : Cluster Account}
    (h : startNodes s count = .ok c) :
    Good (max count 1) c ∧ Capped (max count 1) s.version.maxSameNodeRun c ∧
      c.backend.records = [] ∧ c.objects = #[] := by
  unfold startNodes at h
  have hrun := foldlM_induction (fun k c => Good k c ∧ Capped k s.version.maxSameNodeRun c ∧
    c.backend.records = [] ∧ c.objects = #[]) ?_ (k := 0) ?_ h
  · rwa [List.length_range, Nat.zero_add] at hrun
  · -- node `i` is built, joins the others, and subscribes to the store
    intro k c i c' ⟨hg, hcap, hrec, hobj⟩ hstep
    simp only [bind, Except.bind] at hstep
    split at hstep
    · cases hstep
    · next r hbuild =>
      obtain ⟨hid, hcache, hmax⟩ := Repository.build_ok hbuild
      have hempty : r.cache.entries = [] := by rw [hcache]; rfl
      have hjoin := hg.push hid hempty
      have hcapped := hcap.push hg.size hmax hempty
      have hlisten := holds_of_triple (triple_both (addListener_capped (n := k + 1) i "events")
          (addListener_records i "events" [] #[])) (fun _ _ h => h) (fun _ _ h => h)
        ⟨⟨hjoin, hcapped⟩, hrec, hobj⟩
      split at hstep
      next res c'' heq =>
      rw [heq] at hlisten
      split at hstep
      · cases hstep
        exact ⟨hlisten.1.1, hlisten.1.2, hlisten.2⟩
      · cases hstep
  · -- no node yet, and an empty store
    have hfresh : Fresh 0 (⟨Backend.empty, [], #[], [], [], [], 0, soakWallStart⟩ :
        Cluster Account) :=
      ⟨rfl, fun p hp => by simp [Backend.empty] at hp, fun j hj => absurd hj (Nat.not_lt_zero j),
        fun _ => rfl⟩
    exact ⟨hfresh.good, hfresh.capped (fun j hj => absurd hj (Nat.not_lt_zero j))
      (fun p hp => by simp [Backend.empty] at hp), rfl, rfl⟩

section Seed

variable {n M : Nat} {P : Nat → String × String × PersisterSettings} {A : Set Identity}

theorem sound_draws (i : Nat) : Draws i (P i) (Sound n M P A) where
  setup _ h := h.ledger.setup i
  keys _ _ h := ⟨h.good.node rfl rfl, h.capped.keepCache i rfl rfl, h.ledger.modifyNode i rfl⟩
  read _ _ hb h := ⟨h.good.of_frame hb rfl le_rfl, h.capped.of_frame hb rfl, h.ledger.of_frame hb rfl rfl⟩

/-- **Creating an account** on the first node of a sound cluster stores an identity the node
admits and the store did not hold, and leaves the cluster sound with that identity among the
accounts. -/
theorem createAccount_spec (hn : 0 < n) :
    ⦃fun c => ⌜Sound n M P A c⌝⦄ createAccount
    ⦃post⟨fun id c => ⌜Sound n M P (insert id A) c ∧ id ∉ A ∧ (c.node 0).Admits id⌝,
      fun _ _ => ⌜True⌝⟩⦄ := by
  unfold createAccount
  refine Triple.bind _ _ (triple_post (newId_spec (sound_draws 0) "acct-") (fun _ _ h => h)
    fun _ _ _ => trivial) fun id => ?_
  -- the account made under the drawn identity is a new object, which no cache entry holds, so
  -- its change creates the identity
  have hupd := fun k => triple_both (update_capped Account.model (M := M) 0 k hn)
    (update_fresh Account.model account_keepsIdentity (P := P) (K := A) (S := insert id A) 0 k hn id)
  mvcgen [hupd]
  case vc1 s h _ =>
    obtain ⟨hs, -⟩ := h
    have hgood : Good n (s.make ⟨id, 0⟩).1 := hs.good.of_frame rfl rfl (by simp)
    have hk : 0 < s.objects.size + 1 ∧ s.objects.size + 1 ≤ (s.make ⟨id, 0⟩).1.objects.size := by
      simp
    -- the new object is numbered after every object a cache entry holds
    have hnew : ∀ e, ((s.make ⟨id, 0⟩).1.node 0).cache.entryOf id = some e →
        e.inst ≠ s.objects.size + 1 := by
      intro e he
      have := (hs.good.objects 0).inst (hs.good.caches 0).keyed he
      omega
    exact ⟨⟨⟨hgood, hs.capped.of_frame rfl rfl⟩, hk⟩,
      ⟨⟨hgood, hk⟩, (hs.ledger.widen (Set.subset_insert _ _)).make (Set.mem_insert _ _)⟩,
      congrArg Account.model.identity (obj_make s _), hnew⟩
  case vc2 _ h₀ _ _ _ h =>
    obtain ⟨⟨hg, hc⟩, -, hl, hfresh⟩ := h
    exact ⟨⟨hg, hc, hl⟩, hfresh, h₀.2.of_setup ((hl.setup 0).trans (h₀.1.ledger.setup 0).symm)⟩

/-- **Seeding creates `count` different accounts**, all admitted by the first node, and leaves
the cluster sound with exactly them as its accounts. -/
theorem seedAccounts_ok (hn : 0 < n) {c c' : Cluster Account} {count : Nat} {ids : Array Identity}
    (hc : Sound n M P {x | x ∈ (#[] : Array Identity)} c) (h : seedAccounts c count = .ok (c', ids)) :
    ids.size = count ∧ ids.toList.Nodup ∧ Sound n M P {x | x ∈ ids} c' ∧
      ∀ x ∈ ids, (c'.node 0).Admits x := by
  unfold seedAccounts at h
  have hrun := foldlM_induction (fun k (p : Cluster Account × Array Identity) =>
    p.2.size = k ∧ p.2.toList.Nodup ∧ Sound n M P {x | x ∈ p.2} p.1 ∧
      ∀ x ∈ p.2, (p.1.node 0).Admits x) ?_ (k := 0) ⟨rfl, List.nodup_nil, hc, by simp⟩ h
  · rwa [List.length_range, Nat.zero_add] at hrun
  · -- one more account, different from all before it
    rintro k ⟨c, ids⟩ _ ⟨c', ids'⟩ ⟨hsize, hnodup, hs, hadm⟩ hstep
    dsimp only at hstep
    split at hstep
    next res c'' heq =>
    split at hstep
    · next id =>
      cases hstep
      have hend := triple_iff.mp (createAccount_spec hn) c hs
      rw [heq] at hend
      obtain ⟨hs', hnew, hid⟩ := hend
      have hA : {x | x ∈ ids.push id} = insert id {x | x ∈ ids} := by
        ext x
        simp [Array.mem_push, or_comm]
      refine ⟨by simp [hsize], ?_, hA ▸ hs', fun x hx => ?_⟩
      · rw [Array.toList_push, List.nodup_append]
        exact ⟨hnodup, List.nodup_singleton id, by
          rintro a ha b hb rfl
          obtain rfl := List.mem_singleton.mp hb
          exact hnew (by simpa using ha)⟩
      · rcases Array.mem_push.mp hx with hx | rfl
        · exact (hadm x hx).of_setup ((hs'.ledger.setup 0).trans (hs.ledger.setup 0).symm)
        · exact hid
    · cases hstep

end Seed

theorem Settings.maxSameNodeRun_pos {s : Settings} {u : Unit} (h : s.validate = .ok u) :
    1 ≤ s.version.maxSameNodeRun :=
  ((Settings.validate_eq_ok_iff s).mp h).2.1

section Store

variable {n M : Nat} {P : Nat → String × String × PersisterSettings} {c : Cluster Account}
  {ids : Array Identity}

theorem Sound.records_length (h : Sound n M P {x | x ∈ ids} c) (hids : ids.toList.Nodup) :
    c.backend.records.length = ids.size := by
  rw [← Array.length_toList]
  refine h.ledger.sorted.length_eq hids fun x => ⟨fun hx => ?_, fun hx => ?_⟩
  · obtain ⟨p, hp, rfl⟩ := List.mem_map.mp hx
    exact Array.mem_toList_iff.mpr (h.ledger.stored p hp)
  · obtain ⟨r, hr⟩ := Option.isSome_iff_exists.mp (h.ledger.kept x (Array.mem_toList_iff.mp hx))
    exact List.mem_map.mpr ⟨_, Backend.get?_mem hr, rfl⟩

theorem Sound.findIds_accounts (h : Sound n M P {x | x ∈ ids} c)
    (hadm : ∀ x ∈ ids, (c.node 0).Admits x) {stored : List Identity} {c' : Cluster Account}
    (hrun : (findIds (ω := Account) 0 { kind := accountKind, filter := .all }).run.run c =
      (.ok stored, c')) :
    stored = c.backend.records.map (·.1) ∧ c'.backend.records = c.backend.records ∧
      c'.nodes = c.nodes := by
  have hend := triple_iff.mp (findIds_spec 0 { kind := accountKind, filter := .all } rfl c) c rfl
  rw [hrun] at hend
  obtain ⟨hrec, hnodes, hkind, rfl⟩ := hend
  have hall : ∀ p ∈ c.backend.records, (c.node 0).Admits p.1 :=
    fun p hp => hadm p.1 (h.ledger.stored p hp)
  have hsel : c.backend.records.filter (fun p => Query.selects
      { kind := accountKind, filter := .all } p.1 p.2) = c.backend.records := by
    refine List.filter_eq_self.mpr fun p hp => ?_
    have hk : p.1.kind = accountKind := (hall p hp).1.trans hkind.symm
    simp [Query.selects, hk]
  refine ⟨?_, hrec, hnodes⟩
  rw [hsel]
  refine List.filter_eq_self.mpr fun x hx => ?_
  obtain ⟨p, hp, rfl⟩ := List.mem_map.mp hx
  exact (hall p hp).2

theorem passes_cap {M : Nat} (h : Capped n M c) (hM : 1 ≤ M) {id : Identity} {r : Record}
    (hr : c.backend.get? id = some r) : exceedsCap r.version M = false := by
  have hruns := h.stored.get? hr
  rw [max_eq_left hM] at hruns
  exact (exceedsCap_eq_false_iff _ _).mpr hruns

end Store

theorem soak_healthy (s : Settings) (o : SoakOptions) (turns : List (Nat × Move))
    (hturns : ∀ t ∈ turns, t.1 < max o.nodes 1) {rep : SoakReport}
    (h : runWith s o turns = .ok rep) :
    rep.capViolations = 0 ∧ rep.storedRecords = o.accounts := by
  unfold runWith at h
  simp only [bind, Except.bind] at h
  split at h
  · cases h
  next c₀ hstart =>
  split at h
  · cases h
  next seeded hseed =>
  split at h
  · cases h
  split at h
  · cases h
  next hvalid =>
  split at h
  · cases h
  next dropped hdrop =>
  split at h
  · cases h
  next stored hfind =>
  cases h
  -- the nodes as they start, and the accounts created on the first of them
  obtain ⟨hg₀, hcap₀, hrec₀, hobj₀⟩ := startNodes_ok hstart
  have hs₀ : Sound (max o.nodes 1) s.version.maxSameNodeRun (fun j => (c₀.node j).setup)
      {x | x ∈ (#[] : Array Identity)} c₀ :=
    ⟨hg₀, hcap₀, ⟨fun _ => rfl, by simp [Backend.Sorted, hrec₀], fun x hx => by simp at hx,
      fun p hp => by simp [hrec₀] at hp, fun o ho => by simp [hobj₀] at ho⟩⟩
  obtain ⟨hsize, hnodup, hs₁, hadm⟩ := seedAccounts_ok (by omega) hs₀ hseed
  -- every node runs, every node is closed, and the stranded accounts are thrown away
  have hs₃ : Sound (max o.nodes 1) s.version.maxSameNodeRun (fun j => (c₀.node j).setup)
      {x | x ∈ seeded.2} dropped.1.cluster := Fleet.dropStranded_sound ?_ hdrop
  · have hadm₃ : ∀ x ∈ seeded.2, (dropped.1.cluster.node 0).Admits x := fun x hx =>
      (hadm x hx).of_setup ((hs₃.ledger.setup 0).trans (hs₁.ledger.setup 0).symm)
    -- the search for accounts answers every stored identity
    obtain ⟨rfl, hrec₄, hnodes₄⟩ := hs₃.findIds_accounts hadm₃ (Fleet.run_of_onCluster_snd hfind)
    refine ⟨?_, ?_⟩
    · have hM := Settings.maxSameNodeRun_pos hvalid
      show (List.filter _ _).length = 0
      rw [List.length_eq_zero_iff, List.filter_eq_nil_iff]
      intro v hv
      obtain ⟨id, -, hid⟩ := List.mem_filterMap.mp hv
      obtain ⟨r, hr, rfl⟩ := Option.map_eq_some_iff.mp hid
      simp [passes_cap (hs₃.capped.of_frame hrec₄ hnodes₄) hM hr]
    · show (List.map _ _).length = o.accounts
      rw [List.length_map, hs₃.records_length hnodup, hsize]
  · exact Fleet.closeNodes_sound (Fleet.runTurns_sound o hs₁ hturns)

/-- Two nodes over one account: node 1 makes an operation, then node 0, then node 1 again, and
each runs its queued writes, node 0 first. The run ends, and the report is healthy. -/
theorem soak_healthy_interleaved :
    let turns : List (Nat × Move) :=
      [(1, .operate), (0, .operate), (1, .operate), (0, .flush), (1, .flush)]
    (∀ t ∈ turns, t.1 < max 2 1) ∧ ∃ rep, runWith {} ⟨2, 1, 2, 0, 7⟩ turns = .ok rep ∧
      rep.capViolations = 0 ∧ rep.storedRecords = 1 := by
  intro turns
  have hturns : ∀ t ∈ turns, t.1 < max 2 1 := by decide
  have hok : (runWith {} ⟨2, 1, 2, 0, 7⟩ turns).isOk = true := by decide +kernel
  cases hrun : runWith {} ⟨2, 1, 2, 0, 7⟩ turns with
  | error => simp [hrun, Except.isOk, Except.toBool] at hok
  | ok rep => exact ⟨hturns, rep, rfl, soak_healthy {} ⟨2, 1, 2, 0, 7⟩ turns hturns hrun⟩

end Soak

end Stowage
