import Stowage.Cache.Basic
/-!
The entries of the identity cache.

Every operation of the cache changes its entry list in one of four ways: it replaces the entry
of an identity (`setEntry`), drops it (`dropEntry`), appends a new one (`insert`), or evicts
clean entries (`enforceCapacity`, `sweep`, `discardExpired`). This module says what each does to
the entries, read as a set of pairs, and to the keys: as long as no identity has two entries,
an identity's entry is the pair of it in the list, and every eviction takes out only clean
entries other than the one being made room for.
-/
namespace Stowage

deriving instance ReflBEq, LawfulBEq for Identity

namespace Cache

/-- No identity has two entries. -/
def Keyed (c : Cache) : Prop := (c.entries.map (·.1)).Nodup

@[simp] theorem entries_count (c : Cache) (f : CacheStats → CacheStats) :
    (c.count f).entries = c.entries := rfl

@[simp] theorem serials_count (c : Cache) (f : CacheStats → CacheStats) :
    (c.count f).serials = c.serials := rfl

@[simp] theorem capacity_count (c : Cache) (f : CacheStats → CacheStats) :
    (c.count f).capacity = c.capacity := rfl

@[simp] theorem entries_tick (c : Cache) : c.tick.1.entries = c.entries := rfl

@[simp] theorem serials_tick (c : Cache) : c.tick.1.serials = c.serials := rfl

@[simp] theorem entries_touch (c : Cache) (e : CacheEntry) (now : Nat) :
    (c.touch e now).1.entries = c.entries := rfl

@[simp] theorem serials_touch (c : Cache) (e : CacheEntry) (now : Nat) :
    (c.touch e now).1.serials = c.serials := rfl

theorem touch_entry (c : Cache) (e : CacheEntry) (now : Nat) :
    (c.touch e now).2 = { e with lastAccess := now, lastTick := c.ticks + 1 } := rfl

@[simp] theorem entries_detach (c : Cache) (e : CacheEntry) : (c.detach e).entries = c.entries := by
  unfold detach; split <;> rfl

@[simp] theorem serials_detach (c : Cache) (e : CacheEntry) : (c.detach e).serials = c.serials := by
  unfold detach; split <;> rfl

@[simp] theorem capacity_detach (c : Cache) (e : CacheEntry) :
    (c.detach e).capacity = c.capacity := by
  unfold detach; split <;> rfl

@[simp] theorem entries_evict (c : Cache) (id : Identity) (e : CacheEntry) (held : Nat → Bool) :
    (c.evict id e held).1.entries = c.entries := by
  unfold evict; dsimp only; split <;> simp

@[simp] theorem serials_evict (c : Cache) (id : Identity) (e : CacheEntry) (held : Nat → Bool) :
    (c.evict id e held).1.serials = c.serials := by
  unfold evict; dsimp only; split <;> simp

@[simp] theorem capacity_evict (c : Cache) (id : Identity) (e : CacheEntry) (held : Nat → Bool) :
    (c.evict id e held).1.capacity = c.capacity := by
  unfold evict; dsimp only; split <;> simp

@[simp] theorem serials_setEntry (c : Cache) (id : Identity) (e : CacheEntry) :
    (c.setEntry id e).serials = c.serials := rfl

@[simp] theorem serials_dropEntry (c : Cache) (id : Identity) :
    (c.dropEntry id).serials = c.serials := rfl

@[simp] theorem capacity_dropEntry (c : Cache) (id : Identity) :
    (c.dropEntry id).capacity = c.capacity := rfl

theorem mem_dropEntry {c : Cache} {id : Identity} {p : Identity × CacheEntry} :
    p ∈ (c.dropEntry id).entries ↔ p ∈ c.entries ∧ p.1 ≠ id := by
  simp [dropEntry]

theorem mem_setEntry {c : Cache} {id : Identity} {e : CacheEntry} {p : Identity × CacheEntry} :
    p ∈ (c.setEntry id e).entries ↔
      (p ∈ c.entries ∧ p.1 ≠ id) ∨ (p = (id, e) ∧ ∃ e₀, (id, e₀) ∈ c.entries) := by
  simp only [setEntry, List.mem_map]
  constructor
  · rintro ⟨q, hq, rfl⟩
    by_cases h : q.1 = id
    · exact .inr ⟨by simp [h], q.2, h ▸ hq⟩
    · exact .inl ⟨by simp [h, hq], by simp [h]⟩
  · rintro (⟨hp, hne⟩ | ⟨rfl, e₀, he₀⟩)
    · exact ⟨p, hp, by simp [hne]⟩
    · exact ⟨(id, e₀), he₀, by simp⟩

theorem keys_setEntry (c : Cache) (id : Identity) (e : CacheEntry) :
    (c.setEntry id e).entries.map (·.1) = c.entries.map (·.1) := by
  simp only [setEntry, List.map_map]
  apply List.map_congr_left
  intro p _
  by_cases h : p.1 = id <;> simp [h]

theorem Keyed.setEntry {c : Cache} (hk : c.Keyed) (id : Identity) (e : CacheEntry) :
    (c.setEntry id e).Keyed := by
  unfold Keyed; rw [keys_setEntry]; exact hk

theorem Keyed.sublist {c c' : Cache} (hk : c.Keyed) (h : c'.entries.Sublist c.entries) :
    c'.Keyed :=
  List.Nodup.sublist (h.map _) hk

theorem Keyed.dropEntry {c : Cache} (hk : c.Keyed) (id : Identity) : (c.dropEntry id).Keyed :=
  hk.sublist (show (c.dropEntry id).entries.Sublist c.entries from List.filter_sublist)

theorem entryOf_eq_some_iff {c : Cache} (hk : c.Keyed) {id : Identity} {e : CacheEntry} :
    c.entryOf id = some e ↔ (id, e) ∈ c.entries := by
  unfold Keyed at hk
  unfold entryOf
  revert hk
  induction c.entries with
  | nil => simp
  | cons q rest ih =>
    intro hk
    obtain ⟨k, b⟩ := q
    simp only [List.map_cons, List.nodup_cons, List.mem_map] at hk
    rw [List.lookup_cons, List.mem_cons]
    by_cases h : id = k
    · subst h
      have fresh : ∀ e', (id, e') ∉ rest := fun e' he' => hk.1 ⟨_, he', rfl⟩
      simp [fresh, eq_comm]
    · have hb : (id == k) = false := by simpa using h
      simp [hb, ih hk.2, h]

theorem entryOf_congr {c c' : Cache} (h : c'.entries = c.entries) (id : Identity) :
    c'.entryOf id = c.entryOf id := by
  unfold entryOf; rw [h]

theorem entryOf_eq_none_iff {c : Cache} {id : Identity} :
    c.entryOf id = none ↔ ∀ e, (id, e) ∉ c.entries := by
  unfold entryOf
  induction c.entries with
  | nil => simp
  | cons q rest ih =>
    obtain ⟨k, b⟩ := q
    rw [List.lookup_cons]
    by_cases h : id = k
    · subst h
      simp only [beq_self_eq_true]
      exact ⟨fun h => absurd h (by simp), fun h => absurd List.mem_cons_self (h b)⟩
    · have hb : (id == k) = false := by simpa using h
      simp [hb, ih, h]

theorem entryOf_setEntry_self {c : Cache} (hk : c.Keyed) {id : Identity} {e₀ e : CacheEntry}
    (h : c.entryOf id = some e₀) : Cache.entryOf (c.setEntry id e) id = some e := by
  rw [entryOf_eq_some_iff (hk.setEntry id e), mem_setEntry]
  exact .inr ⟨rfl, e₀, (entryOf_eq_some_iff hk).mp h⟩

theorem entryOf_setEntry_ne {c : Cache} (hk : c.Keyed) {id id' : Identity} (e : CacheEntry)
    (hne : id' ≠ id) : Cache.entryOf (c.setEntry id e) id' = c.entryOf id' := by
  cases h : c.entryOf id' with
  | none =>
    rw [entryOf_eq_none_iff] at h ⊢
    intro e' he'
    rcases mem_setEntry.mp he' with ⟨hm, -⟩ | ⟨he, -⟩
    · exact h e' hm
    · exact hne (congrArg Prod.fst he)
  | some e' =>
    rw [entryOf_eq_some_iff (hk.setEntry id e), mem_setEntry]
    exact .inl ⟨(entryOf_eq_some_iff hk).mp h, hne⟩

theorem entryOf_dropEntry {c : Cache} {id id' : Identity} :
    Cache.entryOf (c.dropEntry id) id' = if id' = id then none else c.entryOf id' := by
  split
  · rename_i h
    subst h
    exact entryOf_eq_none_iff.mpr fun e he => (mem_dropEntry.mp he).2 rfl
  · rename_i h
    unfold entryOf dropEntry
    induction c.entries with
    | nil => rfl
    | cons q rest ih =>
      obtain ⟨k, b⟩ := q
      by_cases hk : k = id
      · subst hk
        have hb : (id' == k) = false := by simpa using h
        simp [List.lookup_cons, hb, ih]
      · have hb : (k == id) = false := by simpa using hk
        simp only [List.filter_cons, hb, Bool.not_false, ↓reduceIte, List.lookup_cons]
        rw [ih]

theorem victim?_spec {c : Cache} {keep : Identity} {held : Nat → Bool} {p : Identity × CacheEntry}
    (h : c.victim? keep held = some p) : p ∈ c.entries ∧ p.2.write = .clean ∧ p.1 ≠ keep := by
  unfold victim? at h
  obtain ⟨l, hl⟩ : ∃ l, c.entries = l := ⟨_, rfl⟩
  rw [hl] at h
  have hsub : ∀ q ∈ l, q ∈ c.entries := fun q hq => hl ▸ hq
  clear hl
  -- the best candidate so far is always a clean entry other than `keep`
  have hbest : ∀ q ∈ (none : Option (Identity × CacheEntry)),
      q ∈ c.entries ∧ q.2.write = .clean ∧ q.1 ≠ keep := fun _ hq => by cases hq
  generalize (none : Option (Identity × CacheEntry)) = best at h hbest
  induction l generalizing best with
  | nil => exact hbest p h
  | cons q rest ih =>
    refine ih (fun r hr => hsub r (List.mem_cons_of_mem q hr)) _ h fun r hr => ?_
    have hq : q ∈ c.entries := hsub q List.mem_cons_self
    dsimp only at hr
    split at hr
    · exact hbest r hr
    · rename_i hsel
      simp only [Bool.or_eq_true, beq_iff_eq, bne_iff_ne, ne_eq, not_or, Decidable.not_not] at hsel
      have good : q ∈ c.entries ∧ q.2.write = .clean ∧ q.1 ≠ keep := ⟨hq, hsel.2, hsel.1⟩
      split at hr
      · cases Option.mem_some_iff.mp hr; exact good
      · split at hr
        · cases Option.mem_some_iff.mp hr; exact good
        · cases Option.mem_some_iff.mp hr; exact hbest _ rfl

theorem enforceCapacity_spec (c : Cache) (keep : Identity) (held : Nat → Bool) (hk : c.Keyed) :
    (c.enforceCapacity keep held).1.entries.Sublist c.entries ∧
      (∀ p ∈ c.entries, (p.2.write ≠ .clean ∨ p.1 = keep) →
        p ∈ (c.enforceCapacity keep held).1.entries) ∧
      (c.enforceCapacity keep held).1.serials = c.serials := by
  unfold enforceCapacity
  -- each round drops one clean victim other than `keep`, so the three facts compose
  suffices ∀ fuel (c : Cache) told, c.Keyed →
      (enforceCapacity.go keep held fuel c told).1.entries.Sublist c.entries ∧
      (∀ p ∈ c.entries, (p.2.write ≠ .clean ∨ p.1 = keep) →
        p ∈ (enforceCapacity.go keep held fuel c told).1.entries) ∧
      (enforceCapacity.go keep held fuel c told).1.serials = c.serials from this _ c [] hk
  intro fuel
  induction fuel with
  | zero => exact fun _ _ _ => ⟨List.Sublist.refl _, fun _ h _ => h, rfl⟩
  | succ fuel ih =>
    intro c told hk
    simp only [enforceCapacity.go]
    split
    · exact ⟨List.Sublist.refl _, fun _ h _ => h, rfl⟩
    · split
      · exact ⟨List.Sublist.refl _, fun _ h _ => h, rfl⟩
      · rename_i vid e hv
        obtain ⟨hmem, hclean, hkeep⟩ := victim?_spec hv
        have hk' : ((c.dropEntry vid).evict vid e held).1.Keyed := by
          unfold Keyed; rw [entries_evict]; exact hk.dropEntry vid
        obtain ⟨hsub, hkept, hserial⟩ := ih _ (told ++ ((c.dropEntry vid).evict vid e held).2) hk'
        simp only [entries_evict, serials_evict, serials_dropEntry] at hsub hkept hserial
        refine ⟨hsub.trans List.filter_sublist, fun p hp hp' => hkept p ?_ hp', hserial⟩
        refine mem_dropEntry.mpr ⟨hp, fun hid => ?_⟩
        -- the victim is the only entry of its identity, and it is clean
        have same : p.2 = e := by
          have h1 := (entryOf_eq_some_iff hk).mpr hp
          have h2 := (entryOf_eq_some_iff hk).mpr hmem
          rw [hid] at h1
          exact Option.some_inj.mp (h1.symm.trans h2)
        rcases hp' with hw | hkp
        · exact hw (same ▸ hclean)
        · exact hkeep (hid ▸ hkp)

theorem evict_told (c : Cache) (id : Identity) (e : CacheEntry) (held : Nat → Bool) :
    ∀ x ∈ (c.evict id e held).2, x = e.inst := by
  unfold evict; dsimp only; split <;> simp

theorem enforceCapacity_told (c : Cache) (keep : Identity) (held : Nat → Bool) :
    ∀ x ∈ (c.enforceCapacity keep held).2, ∃ p ∈ c.entries, p.1 ≠ keep ∧ p.2.inst = x := by
  unfold enforceCapacity
  -- every round evicts an entry of what is left, so of the cache it started from
  suffices ∀ fuel (c' : Cache) told, c'.entries ⊆ c.entries →
      (∀ x ∈ told, ∃ p ∈ c.entries, p.1 ≠ keep ∧ p.2.inst = x) →
      ∀ x ∈ (enforceCapacity.go keep held fuel c' told).2,
        ∃ p ∈ c.entries, p.1 ≠ keep ∧ p.2.inst = x from
    this _ c [] (fun _ h => h) (fun _ h => absurd h List.not_mem_nil)
  intro fuel
  induction fuel with
  | zero => exact fun _ _ _ htold => htold
  | succ fuel ih =>
    intro c' told hsub htold
    simp only [enforceCapacity.go]
    split
    · exact htold
    · split
      · exact htold
      · rename_i vid e hv
        obtain ⟨hmem, -, hkeep⟩ := victim?_spec hv
        refine ih _ _ (fun p hp => ?_) fun x hx => ?_
        · rw [entries_evict] at hp
          exact hsub (mem_dropEntry.mp hp).1
        · rcases List.mem_append.mp hx with hx | hx
          · exact htold x hx
          · exact ⟨(vid, e), hsub hmem, hkeep, (evict_told _ _ _ _ x hx).symm⟩

end Cache

end Stowage
