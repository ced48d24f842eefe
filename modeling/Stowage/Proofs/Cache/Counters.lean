import Stowage.Proofs.Cache.LocalChanges
/-!
The counters of the identity cache follow its entries.

The dirty count is raised when a clean entry is marked, lowered when a write lands on an entry
that nothing marked while it was out, and lowered when an entry with local changes is taken
out; it is never touched when an updating entry is marked again, and never by an eviction,
which takes out only clean entries. So in every session reachable from a fresh cache the dirty
count is the number of entries with local changes, and it is lowered only while it counts the
entry that leaves it, so it never goes below zero. The write-back count is the number of
writes that landed: ends of writes whose writer succeeded while the entry they started on was
still cached.
-/
namespace Stowage

open Stowage.Version

/-- One for an entry with local changes, none for a clean one. -/
def CacheEntry.weight (e : CacheEntry) : Nat := if e.write = .clean then 0 else 1

namespace Cache

/-- Number of entries with local changes: dirty, or updating with their write in flight. -/
def unclean (c : Cache) : Nat := c.entries.countP fun p => p.2.write != .clean

/-- The dirty count and the write-back count. -/
def counters (c : Cache) : Nat × Nat := (c.stats.dirtyCount, c.stats.writebacks)

section Unclean

variable {c : Cache} {id : Identity} {e : CacheEntry}

theorem unclean_congr {c' : Cache} (h : c'.entries = c.entries) : c'.unclean = c.unclean := by
  unfold unclean; rw [h]

theorem entries_split (hk : c.Keyed) (he : c.entryOf id = some e) :
    ∃ l r, c.entries = l ++ (id, e) :: r ∧ (∀ p ∈ l, p.1 ≠ id) ∧ ∀ p ∈ r, p.1 ≠ id := by
  obtain ⟨l, r, hlr⟩ := List.append_of_mem ((entryOf_eq_some_iff hk).mp he)
  have hnd : ((l ++ (id, e) :: r).map (·.1)).Nodup := hlr ▸ hk
  simp only [List.map_append, List.map_cons, List.nodup_append, List.nodup_cons,
    List.mem_map] at hnd
  refine ⟨l, r, hlr, fun p hp hid => ?_, fun p hp hid => hnd.2.1.1 ⟨p, hp, hid⟩⟩
  exact hnd.2.2 p.1 ⟨p, hp, rfl⟩ id List.mem_cons_self hid

theorem unclean_setEntry (hk : c.Keyed) (he : c.entryOf id = some e) (e' : CacheEntry) :
    (c.setEntry id e').unclean + e.weight = c.unclean + e'.weight := by
  obtain ⟨l, r, hlr, hl, hr⟩ := entries_split hk he
  have keep : ∀ s : List (Identity × CacheEntry), (∀ p ∈ s, p.1 ≠ id) →
      s.map (fun p => if p.1 == id then (id, e') else p) = s :=
    fun s hs => (List.map_congr_left fun p hp => by simp [hs p hp]).trans (List.map_id s)
  simp only [unclean, setEntry, hlr, List.map_append, List.map_cons, beq_self_eq_true,
    ↓reduceIte, keep l hl, keep r hr, List.countP_append, List.countP_cons, CacheEntry.weight]
  cases e.write <;> cases e'.write <;> simp <;> omega

theorem unclean_dropEntry (hk : c.Keyed) (he : c.entryOf id = some e) :
    (c.dropEntry id).unclean + e.weight = c.unclean := by
  obtain ⟨l, r, hlr, hl, hr⟩ := entries_split hk he
  have keep : ∀ s : List (Identity × CacheEntry), (∀ p ∈ s, p.1 ≠ id) →
      s.filter (fun p => !(p.1 == id)) = s :=
    fun s hs => List.filter_eq_self.mpr fun p hp => by simp [hs p hp]
  simp only [unclean, dropEntry, hlr, List.filter_append, List.filter_cons, beq_self_eq_true,
    Bool.not_true, Bool.false_eq_true, ↓reduceIte, keep l hl, keep r hr, List.countP_append,
    List.countP_cons, CacheEntry.weight]
  cases e.write <;> simp <;> omega

theorem unclean_of_sublist {c' : Cache} {l : List (Identity × CacheEntry)} (hnd : l.Nodup)
    (sub : c'.entries.Sublist l) (survive : ∀ p ∈ l, p.2.write ≠ .clean → p ∈ c'.entries) :
    c'.unclean = l.countP fun p => p.2.write != .clean := by
  simp only [unclean, List.countP_eq_length_filter]
  refine Nat.le_antisymm (sub.filter _).length_le ?_
  -- every entry with local changes of `l` is one of `c'`, and `l` lists each entry once
  refine List.Nodup.length_le_of_subset (List.Pairwise.filter _ hnd) fun p hp => ?_
  obtain ⟨hp, hw⟩ := List.mem_filter.mp hp
  exact List.mem_filter.mpr ⟨survive p hp (by simpa using hw), hw⟩

theorem nodup_of_keys {l : List (Identity × CacheEntry)} (h : (l.map (·.1)).Nodup) : l.Nodup :=
  List.Pairwise.of_map _ (fun _ _ hne heq => hne (congrArg _ heq)) h

theorem unclean_insert (hk : c.Keyed) (hnone : c.entryOf id = none) (inst : Nat)
    (version : Lineage) (now : Nat) (held : Nat → Bool) :
    (c.insert id inst version .clean now held).1.unclean = c.unclean := by
  obtain ⟨sub, survive, -, -⟩ := insert_spec hk hnone inst version .clean now held
  have hnd := nodup_of_keys (keyed_append hk hnone
    ⟨inst, version, .clean, false, now, c.ticks + 1, c.serials⟩)
  rw [unclean_of_sublist hnd sub fun p hp hw => ?_]
  · simp [unclean, List.countP_append]
  · rcases List.mem_append.mp hp with hp | hp
    · exact survive p hp hw
    · obtain rfl := List.mem_singleton.mp hp
      exact absurd rfl hw

end Unclean

section Counters

variable {c : Cache} {id : Identity} {e : CacheEntry}

@[simp] theorem counters_count_hits (c : Cache) :
    (c.count fun s => { s with hits := s.hits + 1 }).counters = c.counters := rfl

@[simp] theorem counters_startLoad (c : Cache) : c.startLoad.counters = c.counters := rfl

@[simp] theorem counters_touch (c : Cache) (e : CacheEntry) (now : Nat) :
    (c.touch e now).1.counters = c.counters := rfl

@[simp] theorem counters_setEntry (c : Cache) (id : Identity) (e : CacheEntry) :
    (c.setEntry id e).counters = c.counters := rfl

@[simp] theorem counters_dropEntry (c : Cache) (id : Identity) :
    (c.dropEntry id).counters = c.counters := rfl

theorem counters_detach (c : Cache) (e : CacheEntry) :
    (c.detach e).counters = (c.stats.dirtyCount - e.weight, c.stats.writebacks) := by
  unfold detach CacheEntry.weight
  split <;> rfl

theorem counters_evict (c : Cache) (id : Identity) (e : CacheEntry) (held : Nat → Bool) :
    (c.evict id e held).1.counters = (c.stats.dirtyCount - e.weight, c.stats.writebacks) := by
  unfold evict
  dsimp only
  split <;> exact counters_detach _ e

theorem counters_evict_clean (hc : e.write = .clean) (held : Nat → Bool) :
    (c.evict id e held).1.counters = c.counters := by
  rw [counters_evict]
  simp [CacheEntry.weight, hc, counters]

theorem counters_enforceCapacity (c : Cache) (keep : Identity) (held : Nat → Bool) :
    (c.enforceCapacity keep held).1.counters = c.counters := by
  unfold enforceCapacity
  suffices ∀ fuel (c : Cache) told, (enforceCapacity.go keep held fuel c told).1.counters =
      c.counters from this _ c []
  intro fuel
  induction fuel with
  | zero => intro _ _; rfl
  | succ fuel ih =>
    intro c told
    simp only [enforceCapacity.go]
    split
    · rfl
    · split
      · rfl
      · rename_i vid e hv
        rw [ih, counters_evict_clean (victim?_spec hv).2.1]
        rfl

theorem counters_insert (c : Cache) (id : Identity) (inst : Nat) (version : Lineage)
    (write : WriteState) (now : Nat) (held : Nat → Bool) :
    (c.insert id inst version write now held).1.counters = c.counters :=
  counters_enforceCapacity _ id held

theorem counters_install (c : Cache) (id : Identity) (inst : Nat) (version : Lineage) (now : Nat)
    (held : Nat → Bool) : (c.install id inst version now held).1.counters = c.counters := by
  unfold install
  split
  · rfl
  · exact counters_insert ..

theorem counters_discardExpired (c : Cache) (id : Identity) (held : Nat → Bool) :
    (c.discardExpired id held).1.counters = c.counters := by
  unfold discardExpired
  split
  · split
    · rename_i hdrop
      simp only [Bool.and_eq_true, beq_iff_eq] at hdrop
      exact counters_evict_clean hdrop.2 held
    · rfl
  · rfl

theorem counters_sweep (c : Cache) (now : Nat) (held : Nat → Bool) :
    (c.sweep now held).1.counters = c.counters := by
  unfold sweep
  split
  · rfl
  · -- the fold over the idle entries keeps the counters, one clean eviction at a time
    refine List.foldlRecOn
      (motive := fun acc : Cache × Nat × List Nat => acc.1.counters = c.counters) _ _ rfl ?_
    intro acc hacc p hp
    have idle := (List.mem_filter.mp hp).2
    simp only [Bool.and_eq_true, beq_iff_eq] at idle
    exact (counters_evict_clean idle.2 held).trans hacc

theorem counters_hit? {c' : Cache} {now inst : Nat} (h : c.hit? id now = some (c', inst)) :
    c'.counters = c.counters := by
  unfold hit? lookup at h
  split at h
  · split at h
    · cases h
    · cases h
      rfl
  · cases h

theorem counters_markExisting {c' : Cache} {inst now : Nat} {previous : Lineage}
    (h : c.markExisting id inst now = some (.ok (c', previous))) (he : c.entryOf id = some e) :
    c'.stats.dirtyCount + e.weight = c.stats.dirtyCount + 1 ∧
      c'.stats.writebacks = c.stats.writebacks := by
  unfold markExisting at h
  rw [he] at h
  dsimp only at h
  split at h
  · cases h
  · simp only [Option.some.injEq, Except.ok.injEq, Prod.mk.injEq] at h
    obtain ⟨rfl, -⟩ := h
    unfold CacheEntry.weight
    split <;> simp [count, setEntry, touch, tick, *]

theorem counters_finishFlush_ok {t : FlushTicket} (he : c.entryOf id = some e)
    (hs : e.serial = t.serial) (v : Lineage) :
    (c.finishFlush id t (.ok v)).1.counters =
      (c.stats.dirtyCount - (if e.write = .updating then 1 else 0), c.stats.writebacks + 1) := by
  unfold finishFlush
  rw [he]
  have hne : (e.serial != t.serial) = false := by simp [hs]
  simp only [hne, Bool.false_eq_true, ↓reduceIte]
  by_cases hw : e.write = .updating <;> simp [hw, count, counters, setEntry]

theorem counters_finishFlush_error {t : FlushTicket} (f : Fault) :
    (c.finishFlush id t (.error f)).1.counters = c.counters := by
  unfold finishFlush
  split
  · split <;> rfl
  · rfl

theorem counters_detachEntry (he : c.entryOf id = some e) :
    (c.detachEntry id).1.counters = (c.stats.dirtyCount - e.weight, c.stats.writebacks) := by
  unfold detachEntry
  rw [he]
  exact counters_detach _ e

theorem counters_expire (c : Cache) (id : Identity) : (c.expire id).1.counters = c.counters := by
  rcases expire_spec c id with h | ⟨_, _, _, h⟩ <;> rw [h] <;> rfl

end Counters

namespace Session

/-- Whether a call ends a write that lands: its writer succeeded, and the entry the write started
on is still cached. -/
def lands (s : Session) : Call → Bool
  | .endFlush serial (.ok _) =>
    match s.writing.find? (·.2.serial == serial) with
    | some (id, t) => (s.cache.entryOf id).any (·.serial == t.serial)
    | none => false
  | _ => false

/-- The writes a series of calls lands, up to the first call that cannot be made. -/
def landed (s : Session) : List Call → Nat
  | [] => 0
  | call :: calls =>
    match s.step call with
    | some s' => (if s.lands call then 1 else 0) + s'.landed calls
    | none => 0

/-- The dirty count is the number of entries with local changes. -/
def Balanced (s : Session) : Prop := s.cache.stats.dirtyCount = s.cache.unclean

section Steps

variable {s s' : Session}

theorem Balanced.steady (hb : s.Balanced) (hc : s'.cache.counters = s.cache.counters)
    (hu : s'.cache.unclean = s.cache.unclean) :
    s'.Balanced ∧ s'.cache.stats.writebacks = s.cache.stats.writebacks + 0 := by
  simp only [counters, Prod.mk.injEq] at hc
  exact ⟨hc.1.trans (hb.trans hu.symm), hc.2⟩

theorem unclean_rewrite {c c' : Cache} {id : Identity} {e e' : CacheEntry} (hk : c.Keyed)
    (he : c.entryOf id = some e) (hent : c'.entries = (c.setEntry id e').entries)
    (hw : e'.weight = e.weight) : c'.unclean = c.unclean := by
  have := Cache.unclean_setEntry hk he e'
  rw [Cache.unclean_congr hent]
  omega

theorem counts_get {id : Identity} {now : Nat} {held : Nat → Bool} {loaded : Loaded}
    (h : s.Sound) (hs : s.step (.get id now held loaded) = some s') :
    s'.cache.counters = s.cache.counters ∧ s'.cache.unclean = s.cache.unclean := by
  simp only [step] at hs
  split at hs
  · rename_i c _ hhit
    cases hs
    obtain ⟨e₀, he₀, -, hent, -⟩ := hit?_spec hhit
    exact ⟨counters_hit? hhit, unclean_rewrite h.keyed he₀ hent rfl⟩
  · rename_i hmiss
    cases loaded with
    | failed f =>
      cases hs
      exact ⟨rfl, rfl⟩
    | absent =>
      cases hs
      refine ⟨counters_discardExpired _ id held, ?_⟩
      obtain ⟨hent | ⟨e₀, he₀, hclean, hent⟩, -⟩ :=
        discardExpired_spec s.cache.startLoad id held
      · exact Cache.unclean_congr hent
      · -- only a clean expired entry is dropped
        have := Cache.unclean_dropEntry (c := s.cache.startLoad) h.keyed he₀
        rw [Cache.unclean_congr hent]
        simp only [CacheEntry.weight, hclean, ↓reduceIte, Nat.add_zero] at this
        exact this
    | found inst version =>
      cases hs
      refine ⟨counters_install .., ?_⟩
      cases hfound : s.cache.entryOf id with
      | some e₀ =>
        obtain ⟨hent, -⟩ := install_some (c := s.cache.startLoad) hfound inst version now held
        exact unclean_rewrite h.keyed hfound hent rfl
      | none =>
        rw [install_none (c := s.cache.startLoad) hfound]
        exact Cache.unclean_insert (c := s.cache.startLoad) h.keyed hfound inst version now held

theorem balanced_mark {id : Identity} {inst now : Nat} {held : Nat → Bool}
    {provision : Outcome Lineage} (h : s.Sound) (hb : s.Balanced)
    (hs : s.step (.mark id inst now held provision) = some s') :
    s'.Balanced ∧ s'.cache.stats.writebacks = s.cache.stats.writebacks + 0 := by
  simp only [step] at hs
  split at hs
  · rename_i c _ hmark
    cases hs
    obtain ⟨e₀, he₀, -, hent, -⟩ := markExisting_spec hmark
    -- the count rises exactly when a clean entry becomes dirty
    obtain ⟨hdirty, hwb⟩ := counters_markExisting hmark he₀
    have hu := Cache.unclean_setEntry h.keyed he₀ { e₀ with
      write := .dirty, expired := false, lastAccess := now, lastTick := s.cache.ticks + 1 }
    rw [← Cache.unclean_congr hent] at hu
    refine ⟨?_, hwb⟩
    unfold Balanced at hb ⊢
    dsimp only
    unfold CacheEntry.weight at hu hdirty
    by_cases hclean : e₀.write = .clean <;> simp [hclean] at hu hdirty <;> omega
  · cases hs
    exact ⟨hb, rfl⟩
  · split at hs
    · cases hs
      exact ⟨hb, rfl⟩
    · cases provision with
      | ok v =>
        cases hs
        exact hb.steady (counters_insert ..)
          (Cache.unclean_insert h.keyed (markExisting_eq_none ‹_›) inst v now held)
      | error f =>
        cases hs
        exact ⟨hb, rfl⟩

theorem counts_startFlush {id : Identity} (h : s.Sound) (hs : s.step (.startFlush id) = some s') :
    s'.cache.counters = s.cache.counters ∧ s'.cache.unclean = s.cache.unclean := by
  simp only [step] at hs
  split at hs
  · cases hs
  · split at hs
    · rename_i c t hbegin
      cases hs
      obtain ⟨e₀, he₀, hd, rfl, rfl⟩ := beginFlush_spec hbegin
      exact ⟨rfl, unclean_rewrite h.keyed he₀ rfl (by simp [CacheEntry.weight, hd])⟩
    · cases hs
      exact ⟨rfl, rfl⟩

theorem balanced_endFlush {serial : Nat} {result : Outcome Lineage} (h : s.Sound)
    (hb : s.Balanced) (hs : s.step (.endFlush serial result) = some s') :
    s'.Balanced ∧ s'.cache.stats.writebacks =
      s.cache.stats.writebacks + if s.lands (.endFlush serial result) then 1 else 0 := by
  simp only [step] at hs
  split at hs
  · rename_i id t hfind
    cases hs
    have hmem := List.mem_of_find?_eq_some hfind
    by_cases hown : ∃ e₀, s.cache.entryOf id = some e₀ ∧ e₀.serial = t.serial
    · obtain ⟨e₀, he₀, hs₀⟩ := hown
      -- the entry being written has local changes
      have hw := (h.ticketEntry (id, t) hmem (id, e₀)
        ((entryOf_eq_some_iff h.keyed).mp he₀) hs₀).2
      have hweight : e₀.weight = 1 := by simp [CacheEntry.weight, hw]
      have hu := Cache.unclean_setEntry h.keyed he₀
      cases result with
      | ok v =>
        have hu := hu { e₀ with version := v, write := if e₀.write = .updating then .clean else e₀.write }
        rw [← Cache.unclean_congr (finishFlush_entries he₀ hs₀ (.ok v)).1] at hu
        have hc := counters_finishFlush_ok he₀ hs₀ v
        simp only [counters, Prod.mk.injEq] at hc
        have hlands : s.lands (.endFlush serial (.ok v)) = true := by
          simp [lands, hfind, he₀, hs₀]
        rw [hlands, if_pos rfl, hc.2]
        refine ⟨?_, rfl⟩
        unfold Balanced at hb ⊢
        rw [hc.1]
        by_cases hup : e₀.write = .updating
        · simp only [hup, ↓reduceIte, CacheEntry.weight] at hu hweight
          simp only [hup, ↓reduceIte]
          omega
        · simp only [hup, ↓reduceIte, CacheEntry.weight, hw] at hu
          simp only [hup, ↓reduceIte]
          omega
      | error f =>
        have hu := hu { e₀ with write := .dirty }
        rw [← Cache.unclean_congr (finishFlush_entries he₀ hs₀ (.error f)).1] at hu
        have hlands : s.lands (.endFlush serial (.error f)) = false := rfl
        rw [hlands]
        have hdirty : CacheEntry.weight { e₀ with write := .dirty } = 1 := rfl
        rw [hweight, hdirty] at hu
        exact hb.steady (counters_finishFlush_error f) (by dsimp only; omega)
    · -- the entry left the cache while its write was out: nothing changes
      have other : ∀ e, s.cache.entryOf id = some e → e.serial ≠ t.serial :=
        fun e he hs => hown ⟨e, he, hs⟩
      have same := finishFlush_other other result
      have hlands : s.lands (.endFlush serial result) = false := by
        cases result with
        | error f => rfl
        | ok v =>
          simp only [lands, hfind, Option.any_eq_false]
          exact fun e he => beq_false_of_ne (other e he)
      rw [hlands, same]
      exact ⟨hb, rfl⟩
  · cases hs

theorem balanced_detach {id : Identity} (h : s.Sound) (hb : s.Balanced)
    (hs : s' = { s with cache := (s.cache.detachEntry id).1 }) :
    s'.Balanced ∧ s'.cache.stats.writebacks = s.cache.stats.writebacks + 0 := by
  subst hs
  cases he : s.cache.entryOf id with
  | none =>
    have same : (s.cache.detachEntry id).1 = s.cache := by simp [detachEntry, he]
    simp only [same]
    exact ⟨hb, rfl⟩
  | some e₀ =>
    -- the entry leaves with its local changes, and the count with it
    have hc := counters_detachEntry he
    simp only [counters, Prod.mk.injEq] at hc
    have hu := Cache.unclean_dropEntry h.keyed he
    have hent : (s.cache.detachEntry id).1.entries = (s.cache.dropEntry id).entries := by
      simp [detachEntry, he]
    rw [← Cache.unclean_congr hent] at hu
    refine ⟨?_, hc.2⟩
    unfold Balanced at hb ⊢
    dsimp only at hu ⊢
    omega

theorem counts_expire {id : Identity} (h : s.Sound) (hs : s.step (.expire id) = some s') :
    s'.cache.counters = s.cache.counters ∧ s'.cache.unclean = s.cache.unclean := by
  simp only [step] at hs
  cases hs
  refine ⟨counters_expire s.cache id, ?_⟩
  rcases expire_spec s.cache id with same | ⟨e₀, he₀, -, hent⟩
  · exact congrArg Cache.unclean same
  · exact unclean_rewrite h.keyed he₀ (congrArg Cache.entries hent) rfl

theorem counts_refresh {id : Identity} {version : Lineage} {accept : Bool} {peer : Nat}
    (h : s.Sound) (hs : s.step (.refresh id version accept peer) = some s') :
    s'.cache.counters = s.cache.counters ∧ s'.cache.unclean = s.cache.unclean := by
  simp only [step] at hs
  split at hs
  · rename_i inst hoffer
    cases hs
    obtain ⟨e₀, he₀, -⟩ := offer_ok hoffer
    have hent := refresh_spec he₀ version (if accept then none else some peer)
    exact ⟨by rw [hent]; rfl, unclean_rewrite h.keyed he₀ (congrArg Cache.entries hent) rfl⟩
  · cases hs
    exact ⟨rfl, rfl⟩

theorem counts_sweep {now : Nat} {held : Nat → Bool} (h : s.Sound)
    (hs : s.step (.sweep now held) = some s') :
    s'.cache.counters = s.cache.counters ∧ s'.cache.unclean = s.cache.unclean := by
  simp only [step] at hs
  cases hs
  obtain ⟨sub, survive, -⟩ := sweep_spec h.keyed now held
  exact ⟨counters_sweep .., Cache.unclean_of_sublist (Cache.nodup_of_keys h.keyed) sub survive⟩

theorem Balanced.step {call : Call} (h : s.Sound) (hb : s.Balanced)
    (hs : s.step call = some s') :
    s'.Balanced ∧
      s'.cache.stats.writebacks = s.cache.stats.writebacks + if s.lands call then 1 else 0 := by
  cases call with
  | get => exact hb.steady (counts_get h hs).1 (counts_get h hs).2
  | mark => exact balanced_mark h hb hs
  | startFlush => exact hb.steady (counts_startFlush h hs).1 (counts_startFlush h hs).2
  | endFlush => exact balanced_endFlush h hb hs
  | remove => exact balanced_detach h hb (Option.some_inj.mp hs.symm)
  | discard => exact balanced_detach h hb (Option.some_inj.mp hs.symm)
  | expire => exact hb.steady (counts_expire h hs).1 (counts_expire h hs).2
  | refresh => exact hb.steady (counts_refresh h hs).1 (counts_refresh h hs).2
  | sweep => exact hb.steady (counts_sweep h hs).1 (counts_sweep h hs).2

/-- The run lemma for the counters: a series of calls from a reachable balanced session keeps
the balance and counts exactly the writes it lands. -/
theorem Balanced.run {calls : List Call} (hs : s.Reachable) (hb : s.Balanced)
    (h : s.run calls = some s') :
    s'.Balanced ∧ s'.cache.stats.writebacks = s.cache.stats.writebacks + s.landed calls := by
  induction calls generalizing s with
  | nil =>
    cases h
    exact ⟨hb, rfl⟩
  | cons call calls ih =>
    simp only [Session.run, Option.bind_eq_some_iff] at h
    obtain ⟨s₁, h₁, h₂⟩ := h
    obtain ⟨hb₁, hw₁⟩ := hb.step hs.sound h₁
    obtain ⟨hb', hw'⟩ := ih (hs.step h₁) hb₁ h₂
    refine ⟨hb', ?_⟩
    simp only [landed, h₁]
    omega

end Steps

/-- **The dirty count is exact.** After every series of calls on a fresh cache, the dirty count
is the number of entries with local changes (dirty, or updating with their write in flight),
so it is never lowered below zero, and the write-back count is the number of writes that
landed: whose writer succeeded while the entry they started on was still cached. -/
theorem dirty_count_exact {capacity : Nat} {idleTimeout : Option Nat} {calls : List Call}
    {s : Session} (h : (start capacity idleTimeout).run calls = some s) :
    s.cache.stats.dirtyCount = s.cache.entries.countP (fun p => p.2.write != .clean) ∧
      s.cache.stats.writebacks = (start capacity idleTimeout).landed calls := by
  obtain ⟨hb, hw⟩ := Balanced.run (.start capacity idleTimeout) rfl h
  exact ⟨hb, hw.trans (Nat.zero_add _)⟩

/-- A write its writer interrupts: an entry provisioned clean, marked, its write started, the
entry removed by the writer, and the write ended with success; the write does not land. -/
theorem dirty_count_exact_removed_write :
    let doc : Identity := ⟨"doc", "1", none⟩
    let calls : List Call := [.mark doc 7 0 (fun _ => false) (.ok ⟨[]⟩),
      .mark doc 7 1 (fun _ => false) (.ok ⟨[]⟩), .startFlush doc, .remove doc,
      .endFlush 0 (.ok ⟨[⟨"a", 1⟩]⟩)]
    ∃ s, (start 2 none).run calls = some s ∧
      s.cache.stats.dirtyCount = s.cache.entries.countP (fun p => p.2.write != .clean) ∧
        s.cache.stats.writebacks = (start 2 none).landed calls :=
  ⟨_, rfl, dirty_count_exact rfl⟩

example :
    let doc : Identity := ⟨"doc", "1", none⟩
    let calls : List Call := [.mark doc 7 0 (fun _ => false) (.ok ⟨[]⟩),
      .mark doc 7 1 (fun _ => false) (.ok ⟨[]⟩), .startFlush doc, .remove doc,
      .endFlush 0 (.ok ⟨[⟨"a", 1⟩]⟩)]
    ((start 2 none).run calls).map (fun s => (s.cache.stats.dirtyCount, s.cache.stats.writebacks,
      s.cache.entries.length)) = some (0, 0, 0) ∧ (start 2 none).landed calls = 0 := by
  decide

end Session

end Cache

end Stowage
