import Mathlib.Data.List.Nodup
import Stowage.Proofs.Cache.Counters
/-!
Capacity enforcement of the identity cache.

A cache holds at most `max capacity 1` entries, save for entries with local changes, which are
never evicted. An insertion appends its new entry and then evicts clean entries other than it,
one at a time, each the first in eviction order among the clean entries left: an instance held by
no one but its entry goes before a held one, and among those alike the least recently used goes
first. It stops as soon as the capacity holds or no clean entry other than the new one is left.
No other call caches an identity the cache did not hold, so no other call adds an entry; and
while fewer entries than the capacity have local changes, the cache stays within its capacity.
-/
namespace Stowage

open Stowage.Version

namespace Cache

/-! ### Eviction order -/

/-- Eviction order: `p` goes before `q` when its instance is held by no one but its entry and
`q`'s is, or both are alike and `p` was used less recently. -/
def evictsBefore (c : Cache) (held : Nat → Bool) (p q : Identity × CacheEntry) : Bool :=
  let rp := c.referenced p.1 p.2.inst held
  let rq := c.referenced q.1 q.2.inst held
  (!rp && rq) || (rp == rq && p.2.lastTick < q.2.lastTick)

section Order

variable {c : Cache} {held : Nat → Bool} {p q r : Identity × CacheEntry}

theorem evictsBefore_asymm (h : c.evictsBefore held p q = true) :
    c.evictsBefore held q p = false := by
  revert h
  unfold evictsBefore
  cases c.referenced p.1 p.2.inst held <;> cases c.referenced q.1 q.2.inst held <;> simp <;> omega

theorem evictsBefore_irrefl : c.evictsBefore held p p = false := by
  cases h : c.evictsBefore held p p
  · rfl
  · exact absurd h (by rw [evictsBefore_asymm h]; decide)

theorem evictsBefore_split (h : c.evictsBefore held p r = true) (q : Identity × CacheEntry) :
    c.evictsBefore held p q = true ∨ c.evictsBefore held q r = true := by
  revert h
  unfold evictsBefore
  cases c.referenced p.1 p.2.inst held <;> cases c.referenced q.1 q.2.inst held <;>
    cases c.referenced r.1 r.2.inst held <;> simp <;> omega

end Order

/-! ### The victim -/

/-- One step of the search for a victim: a clean entry other than `keep` replaces the best one
so far when it goes before it. -/
def pick (c : Cache) (keep : Identity) (held : Nat → Bool) (best : Option (Identity × CacheEntry))
    (p : Identity × CacheEntry) : Option (Identity × CacheEntry) :=
  if p.1 == keep || p.2.write != .clean then best
  else match best with
    | none => some p
    | some b => if c.evictsBefore held p b then some p else some b

theorem victim?_eq_foldl (c : Cache) (keep : Identity) (held : Nat → Bool) :
    c.victim? keep held = c.entries.foldl (c.pick keep held) none := rfl

section Search

variable {c : Cache} {keep : Identity} {held : Nat → Bool}

theorem pick_skip {best : Option (Identity × CacheEntry)} {p : Identity × CacheEntry}
    (h : p.1 = keep ∨ p.2.write ≠ .clean) : c.pick keep held best p = best := by
  unfold pick
  rcases h with h | h <;> simp [h]

theorem pick_none {p : Identity × CacheEntry} (hkeep : p.1 ≠ keep) (hclean : p.2.write = .clean) :
    c.pick keep held none p = some p := by
  simp [pick, hkeep, hclean]

theorem pick_some {b p : Identity × CacheEntry} (hkeep : p.1 ≠ keep)
    (hclean : p.2.write = .clean) :
    c.pick keep held (some b) p = if c.evictsBefore held p b then some p else some b := by
  simp [pick, hkeep, hclean]

theorem foldl_pick (l : List (Identity × CacheEntry)) (best : Option (Identity × CacheEntry))
    {v : Identity × CacheEntry} (h : l.foldl (c.pick keep held) best = some v) :
    (best = some v ∨ v ∈ l ∧ v.1 ≠ keep ∧ v.2.write = .clean) ∧
      (∀ b ∈ best, c.evictsBefore held b v = false) ∧
      ∀ q ∈ l, q.1 ≠ keep → q.2.write = .clean → c.evictsBefore held q v = false := by
  induction l generalizing best with
  | nil =>
    cases h
    exact ⟨.inl rfl, fun b hb => Option.mem_some_iff.mp hb ▸ evictsBefore_irrefl, by simp⟩
  | cons p rest ih =>
    obtain ⟨hsrc, hbest, hrest⟩ := ih (c.pick keep held best p) h
    have hrest' : ∀ q ∈ rest, q.1 ≠ keep → q.2.write = .clean → c.evictsBefore held q v = false :=
      hrest
    by_cases hskip : p.1 = keep ∨ p.2.write ≠ .clean
    · -- not a candidate: the search goes on from `best`
      rw [pick_skip hskip] at hsrc hbest
      refine ⟨hsrc.imp_right fun hv => ⟨List.mem_cons_of_mem p hv.1, hv.2⟩, hbest, ?_⟩
      intro q hq hkeep hclean
      rcases List.mem_cons.mp hq with rfl | hq
      · exact absurd hskip (by simp [hkeep, hclean])
      · exact hrest' q hq hkeep hclean
    · obtain ⟨hkeep, hclean⟩ : p.1 ≠ keep ∧ p.2.write = .clean := by
        simpa [not_or] using hskip
      have from_p : some p = some v ∨ v ∈ rest ∧ v.1 ≠ keep ∧ v.2.write = .clean →
          v ∈ p :: rest ∧ v.1 ≠ keep ∧ v.2.write = .clean := by
        rintro (hv | ⟨hv, hvk, hvc⟩)
        · cases hv; exact ⟨List.mem_cons_self, hkeep, hclean⟩
        · exact ⟨List.mem_cons_of_mem p hv, hvk, hvc⟩
      cases best with
      | none =>
        rw [pick_none hkeep hclean] at hsrc hbest
        refine ⟨.inr (from_p hsrc), by simp, fun q hq hqk hqc => ?_⟩
        rcases List.mem_cons.mp hq with rfl | hq
        · exact hbest q rfl
        · exact hrest' q hq hqk hqc
      | some b =>
        rw [pick_some hkeep hclean] at hsrc hbest
        by_cases hpb : c.evictsBefore held p b = true
        · -- `p` replaces `b`, and `b` cannot go before what goes after `p`
          simp only [hpb, ↓reduceIte] at hsrc hbest
          have hpv : c.evictsBefore held p v = false := hbest p rfl
          refine ⟨.inr (from_p hsrc), fun b' hb' => ?_, fun q hq hqk hqc => ?_⟩
          · rw [← Option.mem_some_iff.mp hb']
            cases hbv : c.evictsBefore held b v
            · rfl
            · rcases evictsBefore_split hbv p with hbp | hpv'
              · rw [evictsBefore_asymm hpb] at hbp; cases hbp
              · rw [hpv] at hpv'; cases hpv'
          · rcases List.mem_cons.mp hq with rfl | hq
            · exact hpv
            · exact hrest' q hq hqk hqc
        · -- `b` stays, and `p` goes neither before `b` nor before what `b` does not
          simp only [hpb, Bool.false_eq_true, ↓reduceIte] at hsrc hbest
          have hbv : c.evictsBefore held b v = false := hbest b rfl
          refine ⟨hsrc.imp_right fun hv => ⟨List.mem_cons_of_mem p hv.1, hv.2⟩, hbest,
            fun q hq hqk hqc => ?_⟩
          rcases List.mem_cons.mp hq with rfl | hq
          · cases hqv : c.evictsBefore held q v
            · rfl
            · rcases evictsBefore_split hqv b with hqb | hbv'
              · exact absurd hqb hpb
              · rw [hbv] at hbv'; cases hbv'
          · exact hrest' q hq hqk hqc

theorem foldl_pick_eq_none (l : List (Identity × CacheEntry))
    (best : Option (Identity × CacheEntry)) (h : l.foldl (c.pick keep held) best = none) :
    best = none ∧ ∀ q ∈ l, q.1 ≠ keep → q.2.write ≠ .clean := by
  induction l generalizing best with
  | nil => exact ⟨h, by simp⟩
  | cons p rest ih =>
    obtain ⟨hnone, hrest⟩ := ih _ h
    by_cases hskip : p.1 = keep ∨ p.2.write ≠ .clean
    · rw [pick_skip hskip] at hnone
      refine ⟨hnone, fun q hq hqk => ?_⟩
      rcases List.mem_cons.mp hq with rfl | hq
      · simpa [hqk] using hskip
      · exact hrest q hq hqk
    · -- a candidate always leaves a best entry
      obtain ⟨hkeep, hclean⟩ : p.1 ≠ keep ∧ p.2.write = .clean := by
        simpa [not_or] using hskip
      cases best with
      | none => rw [pick_none hkeep hclean] at hnone; cases hnone
      | some b =>
        rw [pick_some hkeep hclean] at hnone
        split at hnone <;> cases hnone

theorem victim?_first {v : Identity × CacheEntry} (h : c.victim? keep held = some v) :
    ∀ q ∈ c.entries, q.1 ≠ keep → q.2.write = .clean → c.evictsBefore held q v = false :=
  (foldl_pick c.entries none h).2.2

theorem victim?_eq_none (h : c.victim? keep held = none) :
    ∀ q ∈ c.entries, q.1 ≠ keep → q.2.write ≠ .clean :=
  (foldl_pick_eq_none c.entries none h).2

end Search

/-- A capacity-two cache of two clean entries whose older instance is held: the newer,
unheld entry is the victim. -/
example :
    let a : Identity := ⟨"doc", "a", none⟩
    let b : Identity := ⟨"doc", "b", none⟩
    let old : CacheEntry := ⟨1, ⟨[]⟩, .clean, false, 0, 1, 0⟩
    let new : CacheEntry := ⟨2, ⟨[]⟩, .clean, false, 0, 2, 1⟩
    let c : Cache := ⟨[(a, old), (b, new)], 2, none, 2, 2, {}, []⟩
    (c.victim? ⟨"doc", "c", none⟩ fun n => n == 1).map (·.1) = some b := by
  decide

/-! ### Trimming -/

/-- Evictions of clean entries other than `keep`, one at a time, each first in eviction order
among the clean entries left. -/
inductive Trims (keep : Identity) (held : Nat → Bool) : Cache → Cache → Prop where
  | done (c : Cache) : Trims keep held c c
  | evict {c c' : Cache} {v : Identity × CacheEntry} :
      v ∈ c.entries → v.1 ≠ keep → v.2.write = .clean →
      (∀ q ∈ c.entries, q.1 ≠ keep → q.2.write = .clean → c.evictsBefore held q v = false) →
      Trims keep held ((c.dropEntry v.1).evict v.1 v.2 held).1 c' → Trims keep held c c'

section Trimming

variable {keep : Identity} {held : Nat → Bool} {c c' : Cache}

theorem Trims.sublist (h : Trims keep held c c') : c'.entries.Sublist c.entries := by
  induction h with
  | done => exact List.Sublist.refl _
  | evict _ _ _ _ _ ih =>
    rw [entries_evict] at ih
    exact ih.trans List.filter_sublist

theorem Trims.capacity (h : Trims keep held c c') : c'.capacity = c.capacity := by
  induction h with
  | done => rfl
  | evict _ _ _ _ _ ih => rw [ih, capacity_evict, capacity_dropEntry]

end Trimming

theorem size_dropEntry_lt {c : Cache} {p : Identity × CacheEntry} (hp : p ∈ c.entries) :
    (c.dropEntry p.1).size < c.size :=
  List.length_filter_lt_length_iff_exists.mpr ⟨p, hp, by simp⟩

theorem enforceCapacity_trims (c : Cache) (keep : Identity) (held : Nat → Bool) :
    Trims keep held c (c.enforceCapacity keep held).1 ∧
      ((c.enforceCapacity keep held).1.size ≤ c.capacity ∨
        ∀ p ∈ (c.enforceCapacity keep held).1.entries, p.1 ≠ keep → p.2.write ≠ .clean) := by
  unfold enforceCapacity
  -- each round takes one entry out, so fuel for as many rounds as entries never runs out
  suffices ∀ fuel (c : Cache) told, c.size ≤ fuel →
      Trims keep held c (enforceCapacity.go keep held fuel c told).1 ∧
        ((enforceCapacity.go keep held fuel c told).1.size ≤ c.capacity ∨
          ∀ p ∈ (enforceCapacity.go keep held fuel c told).1.entries,
            p.1 ≠ keep → p.2.write ≠ .clean) from this _ c [] (Nat.le_refl _)
  intro fuel
  induction fuel with
  | zero =>
    intro c told hsize
    exact ⟨.done c, .inl (by simp only [enforceCapacity.go]; omega)⟩
  | succ fuel ih =>
    intro c told hsize
    simp only [enforceCapacity.go]
    split
    · exact ⟨.done c, .inl ‹_›⟩
    · split
      · rename_i hnone
        exact ⟨.done c, .inr (victim?_eq_none hnone)⟩
      · rename_i vid e hv
        obtain ⟨hmem, hclean, hkeep⟩ := victim?_spec hv
        have hfewer : ((c.dropEntry vid).evict vid e held).1.size ≤ fuel := by
          have := size_dropEntry_lt hmem
          simp only [size, entries_evict] at this hsize ⊢
          omega
        obtain ⟨htrims, hbound⟩ := ih _ (told ++ ((c.dropEntry vid).evict vid e held).2) hfewer
        rw [capacity_evict, capacity_dropEntry] at hbound
        exact ⟨.evict hmem hkeep hclean (victim?_first hv) htrims, hbound⟩

@[simp] theorem capacity_enforceCapacity (c : Cache) (keep : Identity) (held : Nat → Bool) :
    (c.enforceCapacity keep held).1.capacity = c.capacity :=
  (enforceCapacity_trims c keep held).1.capacity

/-! ### Insertions -/

/-- `c'` is `c` with a new entry for `id` made room for: the entry appended, then clean entries
other than it evicted one at a time, each first in eviction order when taken, until the capacity
holds or every other entry has local changes. -/
structure Admits (c : Cache) (id : Identity) (held : Nat → Bool) (c' : Cache) : Prop where
  fresh : c.entryOf id = none
  trims : ∃ c₀ e, c₀.entries = c.entries ++ [(id, e)] ∧ c₀.capacity = c.capacity ∧
    Trims id held c₀ c'
  bounded : c'.size ≤ c.capacity ∨ ∀ p ∈ c'.entries, p.1 ≠ id → p.2.write ≠ .clean

theorem admits_insert {c : Cache} (c₁ : Cache) (hent : c₁.entries = c.entries)
    (hcap : c₁.capacity = c.capacity) {id : Identity} (hnone : c.entryOf id = none) (inst : Nat)
    (version : Lineage) (write : WriteState) (now : Nat) (held : Nat → Bool) :
    c.Admits id held (c₁.insert id inst version write now held).1 := by
  let e : CacheEntry := ⟨inst, version, write, false, now, c₁.ticks + 1, c₁.serials⟩
  let c₀ : Cache :=
    { c₁ with ticks := c₁.ticks + 1, entries := c₁.entries ++ [(id, e)], serials := c₁.serials + 1 }
  have unfolded : c₁.insert id inst version write now held = c₀.enforceCapacity id held := rfl
  obtain ⟨htrims, hbound⟩ := enforceCapacity_trims c₀ id held
  rw [unfolded]
  exact ⟨hnone, ⟨c₀, e, by simp [c₀, hent], hcap, htrims⟩, hcap ▸ hbound⟩

section Admission

variable {c c' : Cache} {id : Identity} {held : Nat → Bool}

theorem Admits.capacity (h : c.Admits id held c') : c'.capacity = c.capacity := by
  obtain ⟨c₀, e, -, hcap, htrims⟩ := h.trims
  rw [htrims.capacity, hcap]

theorem Admits.entryOf_eq_none (h : c.Admits id held c') {id' : Identity} (hne : id' ≠ id)
    (hnone : c.entryOf id' = none) : c'.entryOf id' = none := by
  obtain ⟨c₀, e, hent, -, htrims⟩ := h.trims
  rw [entryOf_eq_none_iff] at hnone ⊢
  intro e' he'
  rcases List.mem_append.mp (hent ▸ htrims.sublist.subset he') with hm | hm
  · exact hnone e' hm
  · exact hne (congrArg Prod.fst (List.mem_singleton.mp hm))

end Admission

theorem size_le_unclean_succ {c : Cache} (hk : c.Keyed) {id : Identity}
    (h : ∀ p ∈ c.entries, p.1 ≠ id → p.2.write ≠ .clean) : c.size ≤ c.unclean + 1 := by
  have hsplit := List.length_eq_countP_add_countP (fun p : Identity × CacheEntry => p.1 == id)
    (l := c.entries)
  have hown : c.entries.countP (fun p => p.1 == id) ≤ 1 := by
    have hcount := List.nodup_iff_count_le_one.mp hk id
    rwa [List.count, List.countP_map] at hcount
  have hothers : c.entries.countP (fun p => decide ¬(p.1 == id) = true) ≤ c.unclean := by
    refine List.countP_mono_left fun p hp hne => ?_
    simpa using h p hp (by simpa using hne)
  unfold size
  omega

/-! ### Other operations -/

/-- Every identity cached in `c'` is cached in `c`. -/
def Confined (c c' : Cache) : Prop := ∀ id, c.entryOf id = none → c'.entryOf id = none

section Confinement

variable {c c' : Cache}

theorem Confined.of_entries (h : c'.entries = c.entries) : Confined c c' :=
  fun id hnone => (entryOf_congr h id).trans hnone

theorem Confined.of_sublist (h : c'.entries.Sublist c.entries) : Confined c c' := by
  intro id hnone
  rw [entryOf_eq_none_iff] at hnone ⊢
  exact fun e he => hnone e (h.subset he)

theorem Confined.of_setEntry {id : Identity} {e : CacheEntry}
    (h : c'.entries = (c.setEntry id e).entries) : Confined c c' := by
  intro id' hnone
  rw [entryOf_eq_none_iff] at hnone ⊢
  intro e' he'
  rw [h, mem_setEntry] at he'
  rcases he' with ⟨hm, -⟩ | ⟨hpair, e₀, he₀⟩
  · exact hnone e' hm
  · cases congrArg Prod.fst hpair
    exact hnone e₀ he₀

theorem Confined.size_le (h : Confined c c') (hk : c'.Keyed) : c'.size ≤ c.size := by
  have hsub : c'.entries.map (·.1) ⊆ c.entries.map (·.1) := by
    intro id hid
    obtain ⟨p, hp, rfl⟩ := List.mem_map.mp hid
    have hsome : c'.entryOf p.1 ≠ none := by
      rw [ne_eq, entryOf_eq_none_iff, Classical.not_forall]
      exact ⟨p.2, not_not.mpr hp⟩
    have hin : c.entryOf p.1 ≠ none := fun hnone => hsome (h p.1 hnone)
    rw [ne_eq, entryOf_eq_none_iff, Classical.not_forall] at hin
    obtain ⟨e, he⟩ := hin
    exact List.mem_map.mpr ⟨(p.1, e), not_not.mp he, rfl⟩
  simpa [size] using hk.length_le_of_subset hsub

end Confinement

/-! ### The capacity never changes -/

@[simp] theorem capacity_setEntry (c : Cache) (id : Identity) (e : CacheEntry) :
    (c.setEntry id e).capacity = c.capacity := rfl

@[simp] theorem capacity_startLoad (c : Cache) : c.startLoad.capacity = c.capacity := rfl

theorem capacity_hit? {c c' : Cache} {id : Identity} {now inst : Nat}
    (h : c.hit? id now = some (c', inst)) : c'.capacity = c.capacity := by
  unfold hit? lookup at h
  split at h
  · split at h
    · simp at h
    · simp only [Option.map_some, Option.some.injEq, Prod.mk.injEq] at h
      rw [← h.1]
      rfl
  · simp at h

@[simp] theorem capacity_insert (c : Cache) (id : Identity) (inst : Nat) (version : Lineage)
    (write : WriteState) (now : Nat) (held : Nat → Bool) :
    (c.insert id inst version write now held).1.capacity = c.capacity :=
  capacity_enforceCapacity _ id held

@[simp] theorem capacity_install (c : Cache) (id : Identity) (inst : Nat) (version : Lineage)
    (now : Nat) (held : Nat → Bool) : (c.install id inst version now held).1.capacity = c.capacity := by
  unfold install
  split
  · rfl
  · exact capacity_insert c id inst version .clean now held

@[simp] theorem capacity_discardExpired (c : Cache) (id : Identity) (held : Nat → Bool) :
    (c.discardExpired id held).1.capacity = c.capacity := by
  unfold discardExpired
  split
  · split
    · simp
    · rfl
  · rfl

theorem capacity_markExisting {c c' : Cache} {id : Identity} {inst now : Nat} {previous : Lineage}
    (h : c.markExisting id inst now = some (.ok (c', previous))) : c'.capacity = c.capacity := by
  unfold markExisting at h
  split at h
  · simp at h
  · split at h
    · simp at h
    · simp only [Option.some.injEq, Except.ok.injEq, Prod.mk.injEq] at h
      rw [← h.1]
      split <;> rfl

@[simp] theorem capacity_finishFlush (c : Cache) (id : Identity) (t : FlushTicket)
    (result : Outcome Lineage) : (c.finishFlush id t result).1.capacity = c.capacity := by
  unfold finishFlush
  split
  · split
    · rfl
    · split
      · dsimp only
        split <;> rfl
      · rfl
  · rfl

@[simp] theorem capacity_detachEntry (c : Cache) (id : Identity) :
    (c.detachEntry id).1.capacity = c.capacity := by
  unfold detachEntry
  split <;> simp

@[simp] theorem capacity_expire (c : Cache) (id : Identity) :
    (c.expire id).1.capacity = c.capacity := by
  rcases expire_spec c id with h | ⟨e, -, -, h⟩ <;> rw [h]
  rfl

@[simp] theorem capacity_refresh (c : Cache) (id : Identity) (version : Lineage)
    (replacement : Option Nat) : (c.refresh id version replacement).capacity = c.capacity := by
  unfold refresh
  split <;> rfl

@[simp] theorem capacity_sweep (c : Cache) (now : Nat) (held : Nat → Bool) :
    (c.sweep now held).1.capacity = c.capacity := by
  unfold sweep
  split
  · rfl
  · -- each eviction of the sweep keeps the capacity
    refine List.foldlRecOn
      (motive := fun acc : Cache × Nat × List Nat => acc.1.capacity = c.capacity) _ _ rfl ?_
    intro acc hacc p _
    rw [← hacc]
    simp

/-! ### Sessions -/

/-- The instances a call sees held outside the cache. -/
def Call.heldOutside : Call → Nat → Bool
  | .get _ _ held _ | .mark _ _ _ held _ | .sweep _ held => held
  | _ => fun _ => false

namespace Session

section Steps

variable {s s' : Session}

theorem capacity_step {call : Call} (h : s.step call = some s') :
    s'.cache.capacity = s.cache.capacity := by
  cases call <;> simp only [step] at h
  case get id now held loaded =>
    split at h
    · rename_i hhit
      cases h
      exact capacity_hit? hhit
    · cases loaded <;> cases h <;> simp
  case mark id inst now held provision =>
    split at h
    · rename_i hmark
      cases h
      exact capacity_markExisting hmark
    · cases h; rfl
    · split at h
      · cases h; rfl
      · cases provision <;> cases h <;> simp
  case startFlush id =>
    split at h
    · cases h
    · split at h
      · rename_i hbegin
        cases h
        obtain ⟨e, -, -, rfl, -⟩ := beginFlush_spec hbegin
        rfl
      · cases h; rfl
  case endFlush serial result =>
    split at h
    · cases h; simp
    · cases h
  case refresh id version accept peer =>
    split at h <;> cases h <;> simp
  all_goals cases h; simp

theorem grows_get {id : Identity} {now : Nat} {held : Nat → Bool} {loaded : Loaded}
    (h : s.step (.get id now held loaded) = some s') :
    Confined s.cache s'.cache ∨ s.cache.Admits id held s'.cache := by
  simp only [step] at h
  split at h
  · rename_i hhit
    cases h
    obtain ⟨e₀, -, -, hent, -⟩ := hit?_spec hhit
    exact .inl (.of_setEntry hent)
  · cases loaded with
    | failed f => cases h; exact .inl (.of_entries rfl)
    | absent =>
      cases h
      rcases (discardExpired_spec s.cache.startLoad id held).1 with hent | ⟨_, _, _, hent⟩
      · exact .inl (.of_entries hent)
      · exact .inl (.of_sublist (hent ▸ List.filter_sublist))
    | found inst version =>
      cases h
      cases hfound : s.cache.entryOf id with
      | some e₀ =>
        exact .inl (.of_setEntry (install_some (c := s.cache.startLoad) hfound inst version now held).1)
      | none =>
        rw [install_none (c := s.cache.startLoad) hfound]
        exact .inr (admits_insert (c := s.cache) s.cache.startLoad rfl rfl hfound inst version .clean now held)

theorem grows_mark {id : Identity} {inst now : Nat} {held : Nat → Bool}
    {provision : Outcome Lineage} (h : s.step (.mark id inst now held provision) = some s') :
    Confined s.cache s'.cache ∨ s.cache.Admits id held s'.cache := by
  simp only [step] at h
  split at h
  · rename_i hmark
    cases h
    obtain ⟨e₀, -, -, hent, -⟩ := markExisting_spec hmark
    exact .inl (.of_setEntry hent)
  · cases h; exact .inl (.of_entries rfl)
  · rename_i hnone
    split at h
    · cases h; exact .inl (.of_entries rfl)
    · cases provision with
      | ok v =>
        cases h
        exact .inr (admits_insert _ rfl rfl (markExisting_eq_none hnone) inst v .clean now held)
      | error f => cases h; exact .inl (.of_entries rfl)

theorem grows_step {call : Call} (hs : s.Sound) (h : s.step call = some s') :
    Confined s.cache s'.cache ∨ ∃ id, s.cache.Admits id call.heldOutside s'.cache := by
  cases call with
  | get id now held loaded => exact (grows_get h).imp_right fun h => ⟨id, h⟩
  | mark id inst now held provision => exact (grows_mark h).imp_right fun h => ⟨id, h⟩
  | startFlush id =>
    refine .inl ?_
    simp only [step] at h
    split at h
    · cases h
    · split at h
      · rename_i hbegin
        cases h
        obtain ⟨e, -, -, rfl, -⟩ := beginFlush_spec hbegin
        exact .of_setEntry rfl
      · cases h; exact .of_entries rfl
  | endFlush serial result =>
    refine .inl ?_
    simp only [step] at h
    split at h
    · rename_i id t _
      cases h
      by_cases hserial : ∃ e, s.cache.entryOf id = some e ∧ e.serial = t.serial
      · obtain ⟨e, he, hse⟩ := hserial
        exact .of_setEntry (finishFlush_entries he hse result).1
      · rw [finishFlush_other (fun e he hse => hserial ⟨e, he, hse⟩) result]
        exact .of_entries rfl
    · cases h
  | remove id | discard id =>
    cases h
    exact .inl (.of_sublist (detachEntry_sublist s.cache id).1)
  | expire id =>
    cases h
    refine .inl ?_
    rcases expire_spec s.cache id with hx | ⟨e, -, -, hx⟩ <;> rw [hx]
    · exact .of_entries rfl
    · exact .of_setEntry rfl
  | refresh id version accept peer =>
    refine .inl ?_
    simp only [step] at h
    split at h
    · cases h
      cases he : s.cache.entryOf id with
      | none => unfold Cache.refresh; rw [he]; exact .of_entries rfl
      | some e => rw [refresh_spec he]; exact .of_setEntry rfl
    · cases h; exact .of_entries rfl
  | sweep now held =>
    cases h
    exact .inl (.of_sublist (sweep_spec hs.keyed now held).1)

theorem size_le_step {call : Call} (hs : s.Sound) (hsize : s.cache.size ≤ s.cache.capacity)
    (h : s.step call = some s') (hfew : s'.cache.unclean < s.cache.capacity) :
    s'.cache.size ≤ s.cache.capacity := by
  have hk : s'.cache.Keyed := (hs.step h).1.keyed
  rcases grows_step hs h with hconf | ⟨id, hadm⟩
  · exact Nat.le_trans (hconf.size_le hk) hsize
  · rcases hadm.bounded with hb | hothers
    · exact hb
    · have := size_le_unclean_succ hk hothers
      omega

end Steps

theorem size_le_run {s s' : Session} {calls : List Call} (hs : s.Reachable)
    (hsize : s.cache.size ≤ s.cache.capacity) (hrun : s.run calls = some s')
    (hfew : ∀ n t, s.run (calls.take n) = some t → t.cache.unclean < s.cache.capacity) :
    s'.cache.size ≤ s'.cache.capacity := by
  induction calls generalizing s with
  | nil => cases hrun; exact hsize
  | cons call rest ih =>
    simp only [Session.run, Option.bind_eq_some_iff] at hrun
    obtain ⟨s₁, h₁, h₂⟩ := hrun
    have hcap := capacity_step h₁
    have hfew₁ : s₁.cache.unclean < s.cache.capacity :=
      hfew 1 s₁ (by simp [Session.run, h₁])
    refine ih (hs.step h₁) (hcap ▸ size_le_step hs.sound hsize h₁ hfew₁) h₂ fun n t ht => ?_
    rw [hcap]
    exact hfew (n + 1) t (by simp [Session.run, h₁, ht])

theorem capacity_run {s s' : Session} {calls : List Call} (hrun : s.run calls = some s') :
    s'.cache.capacity = s.cache.capacity := by
  induction calls generalizing s with
  | nil => cases hrun; rfl
  | cons call rest ih =>
    simp only [Session.run, Option.bind_eq_some_iff] at hrun
    obtain ⟨s₁, h₁, h₂⟩ := hrun
    rw [ih h₂, capacity_step h₁]

/-- Capacity enforcement over every run from a fresh cache of capacity `C = max capacity 1`. The
capacity stays `C`. A call that caches an identity the cache did not hold is an admission of it:
the new entry is appended and clean entries other than it are evicted one at a time, each first
in eviction order when taken, until the capacity holds or every other entry has local changes. A
call that caches no new identity adds no entry. So while fewer than `C` entries have local
changes after each call, the cache never holds more than `C` entries. -/
theorem capacity_enforced {capacity : Nat} {idleTimeout : Option Nat} {calls : List Call}
    {s : Session} (hrun : (start capacity idleTimeout).run calls = some s) :
    s.cache.capacity = max capacity 1 ∧
      (∀ call s', s.step call = some s' →
        (∀ id, s.cache.entryOf id = none → s'.cache.entryOf id ≠ none →
          s.cache.Admits id call.heldOutside s'.cache) ∧
        (Confined s.cache s'.cache → s'.cache.size ≤ s.cache.size)) ∧
      ((∀ n t, (start capacity idleTimeout).run (calls.take n) = some t →
          t.cache.unclean < max capacity 1) →
        s.cache.size ≤ max capacity 1) := by
  have hs : s.Reachable := (Reachable.start capacity idleTimeout).run hrun
  have hcap : s.cache.capacity = max capacity 1 := capacity_run hrun
  refine ⟨hcap, fun call s' h => ⟨fun id hnone hsome => ?_, fun hconf => ?_⟩, fun hfew => ?_⟩
  · -- the call brought `id` in, so it is the admission of `id`
    rcases grows_step hs.sound h with hconf | ⟨id', hadm⟩
    · exact absurd (hconf id hnone) hsome
    · by_cases hid : id = id'
      · exact hid ▸ hadm
      · exact absurd (hadm.entryOf_eq_none hid hnone) hsome
  · exact hconf.size_le ((hs.step h).sound.keyed)
  · rw [← hcap]
    exact size_le_run (.start capacity idleTimeout) (by simp [start, empty, size]) hrun hfew

/-- A cache of capacity one that loads one document and then another: the first, clean and held
by no one, makes room for the second. -/
theorem capacity_enforced_two_loads :
    let a : Identity := ⟨"doc", "a", none⟩
    let b : Identity := ⟨"doc", "b", none⟩
    let calls : List Call := [.get a 0 (fun _ => false) (.found 1 ⟨[]⟩),
      .get b 1 (fun _ => false) (.found 2 ⟨[]⟩)]
    ∃ s, (start 1 none).run calls = some s ∧ s.cache.size = 1 ∧
      s.cache.capacity = max 1 1 ∧
      (∀ call s', s.step call = some s' →
        (∀ id, s.cache.entryOf id = none → s'.cache.entryOf id ≠ none →
          s.cache.Admits id call.heldOutside s'.cache) ∧
        (Confined s.cache s'.cache → s'.cache.size ≤ s.cache.size)) ∧
      ((∀ n t, (start 1 none).run (calls.take n) = some t → t.cache.unclean < max 1 1) →
        s.cache.size ≤ max 1 1) :=
  ⟨_, rfl, rfl, capacity_enforced rfl⟩

end Session

end Cache

end Stowage
