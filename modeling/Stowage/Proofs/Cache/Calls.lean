import Stowage.Proofs.Cache.Entries
/-!
What each operation of the identity cache does to its entries.

One lemma per operation, in the terms of `Stowage.Proofs.Cache.Entries`: the entry it rewrites
and into what, the entries it drops, and what happens to the serial counter. Reads find only
unexpired entries; a load installs over an entry only where a read found none; marking,
starting and finishing a write rewrite the entry of their identity; expiring and refreshing
rewrite only a clean entry; and evictions drop only clean ones.
-/
namespace Stowage

open Stowage.Version

namespace Cache

@[simp] theorem entries_startLoad (c : Cache) : c.startLoad.entries = c.entries := rfl

@[simp] theorem serials_startLoad (c : Cache) : c.startLoad.serials = c.serials := rfl

theorem hit?_spec {c c' : Cache} {id : Identity} {now inst : Nat}
    (h : c.hit? id now = some (c', inst)) :
    ∃ e, c.entryOf id = some e ∧ e.expired = false ∧
      c'.entries = (c.setEntry id { e with lastAccess := now, lastTick := c.ticks + 1 }).entries ∧
      c'.serials = c.serials := by
  unfold hit? lookup at h
  split at h
  · rename_i e he
    split at h
    · simp at h
    · rename_i hexp
      simp only [Option.map_some, Option.some.injEq, Prod.mk.injEq] at h
      obtain ⟨rfl, -⟩ := h
      exact ⟨e, he, by simpa using hexp, rfl, rfl⟩
  · simp at h

theorem hit?_eq_none {c : Cache} {id : Identity} {now : Nat} (h : c.hit? id now = none)
    {e : CacheEntry} (he : c.entryOf id = some e) : e.expired = true := by
  unfold hit? lookup at h
  rw [he] at h
  cases hexp : e.expired
  · simp [hexp] at h
  · rfl

theorem discardExpired_spec (c : Cache) (id : Identity) (held : Nat → Bool) :
    ((c.discardExpired id held).1.entries = c.entries ∨
      ∃ e, c.entryOf id = some e ∧ e.write = .clean ∧
        (c.discardExpired id held).1.entries = (c.dropEntry id).entries) ∧
      (c.discardExpired id held).1.serials = c.serials := by
  unfold discardExpired
  split
  · rename_i e he
    split
    · rename_i hdrop
      simp only [Bool.and_eq_true, beq_iff_eq] at hdrop
      exact ⟨.inr ⟨e, he, hdrop.2, by simp⟩, by simp⟩
    · exact ⟨.inl rfl, rfl⟩
  · exact ⟨.inl rfl, rfl⟩

theorem keyed_append {c : Cache} (hk : c.Keyed) {id : Identity} (hnone : c.entryOf id = none)
    (e : CacheEntry) : ((c.entries ++ [(id, e)]).map (·.1)).Nodup := by
  have fresh : id ∉ c.entries.map (·.1) := by
    simp only [List.mem_map, not_exists, not_and]
    intro p hp hid
    exact entryOf_eq_none_iff.mp hnone p.2 (hid ▸ hp)
  rw [List.map_append, List.nodup_append]
  refine ⟨hk, by simp, fun a ha b hb hab => ?_⟩
  simp only [List.map_cons, List.map_nil, List.mem_singleton] at hb
  exact fresh (hb ▸ hab ▸ ha)

theorem insert_spec {c : Cache} (hk : c.Keyed) {id : Identity} (hnone : c.entryOf id = none)
    (inst : Nat) (version : Lineage) (write : WriteState) (now : Nat) (held : Nat → Bool) :
    (c.insert id inst version write now held).1.entries.Sublist
        (c.entries ++ [(id, ⟨inst, version, write, false, now, c.ticks + 1, c.serials⟩)]) ∧
      (∀ p ∈ c.entries, p.2.write ≠ .clean → p ∈ (c.insert id inst version write now held).1.entries) ∧
      (c.insert id inst version write now held).1.serials = c.serials + 1 ∧
      (c.insert id inst version write now held).1.Keyed := by
  let e : CacheEntry := ⟨inst, version, write, false, now, c.ticks + 1, c.serials⟩
  let c₀ : Cache :=
    { c with ticks := c.ticks + 1, entries := c.entries ++ [(id, e)], serials := c.serials + 1 }
  have unfolded : c.insert id inst version write now held = c₀.enforceCapacity id held := rfl
  have hk₀ : c₀.Keyed := keyed_append hk hnone e
  obtain ⟨hsub, hkept, hserial⟩ := enforceCapacity_spec c₀ id held hk₀
  rw [unfolded]
  exact ⟨hsub, fun p hp hw => hkept p (List.mem_append_left _ hp) (.inl hw), hserial,
    hk₀.sublist hsub⟩

theorem insert_entryOf {c : Cache} (hk : c.Keyed) {id : Identity} (hnone : c.entryOf id = none)
    (inst : Nat) (version : Lineage) (write : WriteState) (now : Nat) (held : Nat → Bool) :
    (c.insert id inst version write now held).1.entryOf id =
      some ⟨inst, version, write, false, now, c.ticks + 1, c.serials⟩ := by
  let e : CacheEntry := ⟨inst, version, write, false, now, c.ticks + 1, c.serials⟩
  let c₀ : Cache :=
    { c with ticks := c.ticks + 1, entries := c.entries ++ [(id, e)], serials := c.serials + 1 }
  have hkept := (enforceCapacity_spec c₀ id held (keyed_append hk hnone e)).2.1 (id, e)
    (List.mem_append_right _ (List.mem_singleton_self _)) (.inr rfl)
  exact (entryOf_eq_some_iff (insert_spec hk hnone inst version write now held).2.2.2).mpr hkept

theorem insert_told (c : Cache) (id : Identity) (inst : Nat) (version : Lineage)
    (write : WriteState) (now : Nat) (held : Nat → Bool) :
    ∀ x ∈ (c.insert id inst version write now held).2, ∃ p ∈ c.entries, p.2.inst = x := by
  let e : CacheEntry := ⟨inst, version, write, false, now, c.ticks + 1, c.serials⟩
  let c₀ : Cache :=
    { c with ticks := c.ticks + 1, entries := c.entries ++ [(id, e)], serials := c.serials + 1 }
  intro x hx
  obtain ⟨p, hp, hne, rfl⟩ := enforceCapacity_told c₀ id held x hx
  rcases List.mem_append.mp hp with hp | hp
  · exact ⟨p, hp, rfl⟩
  · exact absurd (by rw [List.mem_singleton.mp hp]) hne

theorem install_some {c : Cache} {id : Identity} {e : CacheEntry} (he : c.entryOf id = some e)
    (inst : Nat) (version : Lineage) (now : Nat) (held : Nat → Bool) :
    (c.install id inst version now held).1.entries =
        (c.setEntry id { e with
          inst, version, expired := false, lastAccess := now, lastTick := c.ticks + 1 }).entries ∧
      (c.install id inst version now held).1.serials = c.serials := by
  unfold install
  rw [he]
  exact ⟨rfl, rfl⟩

theorem install_none {c : Cache} {id : Identity} (he : c.entryOf id = none)
    (inst : Nat) (version : Lineage) (now : Nat) (held : Nat → Bool) :
    c.install id inst version now held = c.insert id inst version .clean now held := by
  unfold install
  rw [he]

theorem markExisting_spec {c c' : Cache} {id : Identity} {inst now : Nat} {previous : Lineage}
    (h : c.markExisting id inst now = some (.ok (c', previous))) :
    ∃ e, c.entryOf id = some e ∧ e.inst = inst ∧
      c'.entries = (c.setEntry id { e with
        write := .dirty, expired := false, lastAccess := now, lastTick := c.ticks + 1 }).entries ∧
      c'.serials = c.serials := by
  unfold markExisting at h
  split at h
  · simp at h
  · rename_i e he
    split at h
    · simp at h
    · rename_i hinst
      refine ⟨e, he, by simpa using hinst, ?_⟩
      simp only [Option.some.injEq, Except.ok.injEq, Prod.mk.injEq] at h
      obtain ⟨rfl, -⟩ := h
      split <;> exact ⟨rfl, rfl⟩

theorem markExisting_base {c c' : Cache} {id : Identity} {inst now : Nat} {previous : Lineage}
    (h : c.markExisting id inst now = some (.ok (c', previous))) {e : CacheEntry}
    (he : c.entryOf id = some e) : previous = e.version := by
  unfold markExisting at h
  split at h
  · simp at h
  · rename_i e' he'
    rw [he] at he'
    cases he'
    split at h
    · simp at h
    · simp only [Option.some.injEq, Except.ok.injEq, Prod.mk.injEq] at h
      exact h.2.symm

theorem markExisting_error {c : Cache} {id : Identity} {inst now : Nat} {f : Fault}
    (h : c.markExisting id inst now = some (.error f)) : ∃ e, c.entryOf id = some e ∧ e.inst ≠ inst := by
  unfold markExisting at h
  split at h
  · simp at h
  · rename_i e he
    split at h
    · rename_i hne
      exact ⟨e, he, by simpa using hne⟩
    · simp at h

theorem markExisting_eq_none {c : Cache} {id : Identity} {inst now : Nat}
    (h : c.markExisting id inst now = none) : c.entryOf id = none := by
  unfold markExisting at h
  split at h
  · assumption
  · split at h <;> simp at h

theorem markExisting_of_entryOf {c : Cache} (hk : c.Keyed) {id : Identity} {e : CacheEntry}
    (he : c.entryOf id = some e) (now : Nat) :
    ∃ c', c.markExisting id e.inst now = some (.ok (c', e.version)) ∧
      c'.entryOf id = some { e with
        write := .dirty, expired := false, lastAccess := now, lastTick := c.ticks + 1 } := by
  obtain ⟨c', hmark⟩ : ∃ c', c.markExisting id e.inst now = some (.ok (c', e.version)) := by
    unfold markExisting
    simp [he, touch, tick]
  obtain ⟨e', he', -, hentries, -⟩ := markExisting_spec hmark
  rw [he] at he'
  cases he'
  exact ⟨c', hmark, by rw [entryOf_congr hentries]; exact entryOf_setEntry_self hk he⟩

theorem markExisting_present {c c' : Cache} (hk : c.Keyed) {id : Identity} {inst now : Nat}
    {previous : Lineage} (h : c.markExisting id inst now = some (.ok (c', previous))) :
    ∃ e, c'.entryOf id = some e := by
  obtain ⟨e, he, -, hent, -⟩ := markExisting_spec h
  exact ⟨_, by rw [entryOf_congr hent]; exact entryOf_setEntry_self hk he⟩

theorem beginFlush_spec {c c' : Cache} {id : Identity} {t : FlushTicket}
    (h : c.beginFlush id = some (c', t)) :
    ∃ e, c.entryOf id = some e ∧ e.write = .dirty ∧ c' = c.setEntry id { e with write := .updating } ∧
      t = ⟨e.serial, e.inst, e.version⟩ := by
  unfold beginFlush at h
  split at h
  · rename_i e he
    split at h
    · rename_i hd
      simp only [Option.some.injEq, Prod.mk.injEq] at h
      exact ⟨e, he, hd, h.1.symm, h.2.symm⟩
    · simp at h
  · simp at h

theorem beginFlush_eq_none {c : Cache} {id : Identity} (h : c.beginFlush id = none)
    {e : CacheEntry} (he : c.entryOf id = some e) : e.write ≠ .dirty := by
  unfold beginFlush at h
  rw [he] at h
  intro hd
  simp [hd] at h

theorem finishFlush_entries {c : Cache} {id : Identity} {t : FlushTicket} {e : CacheEntry}
    (he : c.entryOf id = some e) (hs : e.serial = t.serial) (result : Outcome Lineage) :
    (c.finishFlush id t result).1.entries = (c.setEntry id (match result with
      | .ok v => { e with version := v, write := if e.write = .updating then .clean else e.write }
      | .error _ => { e with write := .dirty })).entries ∧
      (c.finishFlush id t result).1.serials = c.serials := by
  unfold finishFlush
  rw [he]
  have hne : (e.serial != t.serial) = false := by simp [hs]
  simp only [hne, Bool.false_eq_true, ↓reduceIte]
  cases result with
  | ok v =>
    dsimp only
    by_cases hw : e.write = .updating <;> simp only [hw, ↓reduceIte] <;> exact ⟨rfl, rfl⟩
  | error f => exact ⟨rfl, rfl⟩

theorem finishFlush_entryOf {c : Cache} (hk : c.Keyed) {id : Identity} {t : FlushTicket}
    {e : CacheEntry} (he : c.entryOf id = some e) (hs : e.serial = t.serial) (result : Outcome Lineage) :
    (c.finishFlush id t result).1.entryOf id = some (match result with
      | .ok v => { e with version := v, write := if e.write = .updating then .clean else e.write }
      | .error _ => { e with write := .dirty }) := by
  rw [entryOf_congr (finishFlush_entries he hs result).1]
  exact entryOf_setEntry_self hk he

/-- A finished write answers that it stored, or fails as the writer did. -/
@[simp] theorem finishFlush_written (c : Cache) (id : Identity) (t : FlushTicket)
    (result : Outcome Lineage) : (c.finishFlush id t result).2 = result.map fun _ => true := by
  unfold finishFlush
  split
  · split
    · rfl
    · cases result <;> rfl
  · rfl

theorem finishFlush_other {c : Cache} {id : Identity} {t : FlushTicket}
    (h : ∀ e, c.entryOf id = some e → e.serial ≠ t.serial) (result : Outcome Lineage) :
    (c.finishFlush id t result).1 = c := by
  unfold finishFlush
  split
  · rename_i e he
    have hne : (e.serial != t.serial) = true := by simpa using h e he
    simp [hne]
  · rfl

theorem mem_detachEntry {c : Cache} {id : Identity} {p : Identity × CacheEntry} :
    p ∈ (c.detachEntry id).1.entries ↔ p ∈ c.entries ∧ p.1 ≠ id := by
  unfold detachEntry
  split
  · simp [mem_dropEntry]
  · rename_i hnone
    refine ⟨fun hp => ⟨hp, fun hid => ?_⟩, fun hp => hp.1⟩
    exact entryOf_eq_none_iff.mp hnone p.2 (hid ▸ hp)

theorem entryOf_detachEntry (c : Cache) (id id' : Identity) :
    Cache.entryOf (c.detachEntry id).1 id' = if id' = id then none else c.entryOf id' := by
  unfold detachEntry
  split
  · rw [← entryOf_dropEntry]
    unfold entryOf
    rw [entries_detach]
  · rename_i hnone
    split
    · rename_i h
      subst h
      exact hnone
    · rfl

theorem detachEntry_sublist (c : Cache) (id : Identity) :
    (c.detachEntry id).1.entries.Sublist c.entries ∧ (c.detachEntry id).1.serials = c.serials := by
  unfold detachEntry
  split
  · simp only [entries_detach, serials_detach, serials_dropEntry, and_true]
    exact List.filter_sublist
  · exact ⟨List.Sublist.refl _, rfl⟩

theorem expire_spec (c : Cache) (id : Identity) :
    (c.expire id).1 = c ∨
      ∃ e, c.entryOf id = some e ∧ e.write = .clean ∧
        (c.expire id).1 = c.setEntry id { e with expired := true } := by
  unfold expire
  split
  · rename_i e he
    split
    · exact .inr ⟨e, he, by assumption, rfl⟩
    · exact .inl rfl
  · exact .inl rfl

theorem offer_ok {c : Cache} {id : Identity} {inst : Nat} (h : c.offer id = .ok inst) :
    ∃ e, c.entryOf id = some e ∧ e.write = .clean := by
  unfold offer at h
  split at h
  · rename_i e he
    split at h
    · exact ⟨e, he, by assumption⟩
    · simp at h
  · simp at h

theorem refresh_spec {c : Cache} {id : Identity} {e : CacheEntry} (he : c.entryOf id = some e)
    (version : Lineage) (replacement : Option Nat) :
    c.refresh id version replacement =
      c.setEntry id { e with expired := false, version, inst := replacement.getD e.inst } := by
  unfold refresh
  rw [he]

theorem sweep_fold (held : Nat → Bool) (idle : List (Identity × CacheEntry))
    (acc : Cache × Nat × List Nat) :
    (idle.foldl (fun (acc : Cache × Nat × List Nat) p =>
        let (c, t) := (acc.1.dropEntry p.1).evict p.1 p.2 held
        (c, acc.2.1 + 1, acc.2.2 ++ t)) acc).1.entries =
        acc.1.entries.filter (fun q => !(idle.any (·.1 == q.1))) ∧
      (idle.foldl (fun (acc : Cache × Nat × List Nat) p =>
        let (c, t) := (acc.1.dropEntry p.1).evict p.1 p.2 held
        (c, acc.2.1 + 1, acc.2.2 ++ t)) acc).1.serials = acc.1.serials := by
  induction idle generalizing acc with
  | nil => exact ⟨(List.filter_eq_self.mpr fun _ _ => rfl).symm, rfl⟩
  | cons p rest ih =>
    obtain ⟨hent, hser⟩ := ih (((acc.1.dropEntry p.1).evict p.1 p.2 held).1, acc.2.1 + 1,
      acc.2.2 ++ ((acc.1.dropEntry p.1).evict p.1 p.2 held).2)
    refine ⟨hent.trans ?_, hser.trans (by simp)⟩
    simp only [entries_evict, dropEntry, List.filter_filter, List.any_cons]
    apply List.filter_congr
    intro q _
    rw [BEq.comm (a := p.1)]
    cases q.1 == p.1 <;> simp

theorem sweep_spec {c : Cache} (hk : c.Keyed) (now : Nat) (held : Nat → Bool) :
    (c.sweep now held).1.entries.Sublist c.entries ∧
      (∀ p ∈ c.entries, p.2.write ≠ .clean → p ∈ (c.sweep now held).1.entries) ∧
      (c.sweep now held).1.serials = c.serials := by
  unfold sweep
  split
  · exact ⟨List.Sublist.refl _, fun _ h _ => h, rfl⟩
  · rename_i timeout _
    obtain ⟨hent, hser⟩ := sweep_fold held (c.entries.filter fun p =>
      decide (now - p.2.lastAccess ≥ timeout) && p.2.write == .clean) (c, 0, [])
    refine ⟨hent ▸ List.filter_sublist, fun p hp hw => ?_, hser⟩
    rw [hent, List.mem_filter]
    refine ⟨hp, ?_⟩
    -- an idle pair of the same identity would be this very entry, which is not clean
    simp only [Bool.not_eq_true', List.any_eq_false, List.mem_filter, Bool.and_eq_true,
      beq_iff_eq, and_imp]
    intro q hq _ hclean hid
    have same : q.2 = p.2 := by
      have h1 := (entryOf_eq_some_iff hk).mpr hq
      have h2 := (entryOf_eq_some_iff hk).mpr hp
      rw [hid] at h1
      exact Option.some_inj.mp (h1.symm.trans h2)
    exact hw (same ▸ hclean)

end Cache

end Stowage
