import Stowage.Proofs.Cache.LocalChanges
import Stowage.Proofs.Cluster.Frame
/-!
Instances evicted while held stay out of the cache.

When capacity enforcement, a sweep or a reload that found its record gone evicts an entry whose
instance is still held outside the cache, the instance is told it was deleted and the cache
records it as the last instance evicted under its identity (`Cache.evicted`). As long as that
record names it, the cache never holds the instance under that identity again: loads and reloads
bring new instances, and a change recorded through the evicted instance is refused with an
invariant fault before anything is provisioned, a different instance being cached or none.

The record keeps one instance per identity. Once another instance of the identity is evicted
while held, the first is forgotten, and a change recorded through it provisions the identity
anew and caches it again.
-/
namespace Stowage

open Stowage.Version

namespace Cache

@[simp] theorem evicted_count (c : Cache) (f : CacheStats → CacheStats) :
    (c.count f).evicted = c.evicted := rfl

@[simp] theorem evicted_tick (c : Cache) : c.tick.1.evicted = c.evicted := rfl

@[simp] theorem evicted_touch (c : Cache) (e : CacheEntry) (now : Nat) :
    (c.touch e now).1.evicted = c.evicted := rfl

@[simp] theorem evicted_setEntry (c : Cache) (id : Identity) (e : CacheEntry) :
    (c.setEntry id e).evicted = c.evicted := rfl

@[simp] theorem evicted_dropEntry (c : Cache) (id : Identity) :
    (c.dropEntry id).evicted = c.evicted := rfl

@[simp] theorem evicted_startLoad (c : Cache) : c.startLoad.evicted = c.evicted := rfl

@[simp] theorem evicted_detach (c : Cache) (e : CacheEntry) : (c.detach e).evicted = c.evicted := by
  unfold detach; split <;> rfl

theorem lookup_evicted_evict (c : Cache) (vid : Identity) (e : CacheEntry) (held : Nat → Bool)
    (id : Identity) : (c.evict vid e held).1.evicted.lookup id =
      if id = vid ∧ c.referenced vid e.inst held = true then some e.inst
      else c.evicted.lookup id := by
  unfold evict
  dsimp only
  split
  · rename_i hshared
    by_cases hid : id = vid
    · subst hid
      simp [hshared]
    · simp [hid, lookup_cons_ite, Backend.lookup_filter_ne _ _ hid]
  · rename_i hshared
    simp [hshared]

theorem evicted_hit? {c c' : Cache} {id : Identity} {now inst : Nat}
    (h : c.hit? id now = some (c', inst)) : c'.evicted = c.evicted := by
  unfold hit? lookup at h
  split at h
  · split at h
    · simp at h
    · simp only [Option.map_some, Option.some.injEq, Prod.mk.injEq] at h
      obtain ⟨rfl, -⟩ := h
      rfl
  · simp at h

theorem evicted_markExisting {c c' : Cache} {id : Identity} {inst now : Nat} {previous : Lineage}
    (h : c.markExisting id inst now = some (.ok (c', previous))) : c'.evicted = c.evicted := by
  unfold markExisting at h
  split at h
  · simp at h
  · split at h
    · simp at h
    · simp only [Option.some.injEq, Except.ok.injEq, Prod.mk.injEq] at h
      obtain ⟨rfl, -⟩ := h
      split <;> rfl

theorem evicted_finishFlush (c : Cache) (id : Identity) (t : FlushTicket)
    (result : Outcome Lineage) : (c.finishFlush id t result).1.evicted = c.evicted := by
  unfold finishFlush
  split
  · split
    · rfl
    · split
      · dsimp only
        split <;> rfl
      · rfl
  · rfl

theorem evicted_detachEntry (c : Cache) (id : Identity) :
    (c.detachEntry id).1.evicted = c.evicted := by
  unfold detachEntry
  split <;> simp

/-- While the cache names `x` as the last instance evicted under `id`, it does not hold `x`
under `id`. -/
def Barred (id : Identity) (x : Nat) (c : Cache) : Prop :=
  c.evicted.lookup id = some x → ∀ e, c.entryOf id = some e → e.inst ≠ x

section Barred

variable {id : Identity} {x : Nat} {c c' : Cache}

theorem barred_of_absent (h : c.entryOf id = none) : Barred id x c :=
  fun _ e he => absurd (h.symm.trans he) (by simp)

theorem Barred.shrink (h : Barred id x c) (hk : c.Keyed) (hev : c'.evicted = c.evicted)
    (hsub : c'.entries.Sublist c.entries) : Barred id x c' := by
  intro hlast e he
  have hmem := (entryOf_eq_some_iff (hk.sublist hsub)).mp he
  exact h (hev ▸ hlast) e ((entryOf_eq_some_iff hk).mpr (hsub.subset hmem))

theorem Barred.rewrite (h : Barred id x c) (hk : c.Keyed) (hev : c'.evicted = c.evicted)
    {id' : Identity} {e₀ e' : CacheEntry} (he₀ : c.entryOf id' = some e₀)
    (hent : c'.entries = (c.setEntry id' e').entries) (hinst : e'.inst = e₀.inst ∨ e'.inst ≠ x) :
    Barred id x c' := by
  intro hlast e he
  rw [entryOf_congr hent] at he
  by_cases hid : id = id'
  · subst hid
    rw [entryOf_setEntry_self hk he₀] at he
    cases he
    rcases hinst with hsame | hne
    · rw [hsame]
      exact h (hev ▸ hlast) e₀ he₀
    · exact hne
  · rw [entryOf_setEntry_ne hk _ hid] at he
    exact h (hev ▸ hlast) e he

theorem Barred.evict (h : Barred id x c) (vid : Identity) (e : CacheEntry) (held : Nat → Bool) :
    Barred id x ((c.dropEntry vid).evict vid e held).1 := by
  intro hlast e' he'
  rw [lookup_evicted_evict] at hlast
  rw [entryOf_congr (entries_evict _ _ _ _), entryOf_dropEntry] at he'
  split at he'
  · cases he'
  · rename_i hid
    rw [if_neg fun hv => hid hv.1, evicted_dropEntry] at hlast
    exact h hlast e' he'

theorem Barred.enforceCapacity (h : Barred id x c) (keep : Identity) (held : Nat → Bool) :
    Barred id x (c.enforceCapacity keep held).1 := by
  unfold Cache.enforceCapacity
  -- each round is one eviction
  suffices ∀ fuel (c : Cache) told, Barred id x c →
      Barred id x (enforceCapacity.go keep held fuel c told).1 from this _ c [] h
  intro fuel
  induction fuel with
  | zero => exact fun _ _ hb => hb
  | succ fuel ih =>
    intro c told hb
    simp only [enforceCapacity.go]
    split
    · exact hb
    · split
      · exact hb
      · rename_i vid e _
        exact ih _ _ (hb.evict vid e held)

theorem Barred.sweep (h : Barred id x c) (now : Nat) (held : Nat → Bool) :
    Barred id x (c.sweep now held).1 := by
  unfold Cache.sweep
  split
  · exact h
  · -- each idle entry is one eviction
    refine List.foldlRecOn
      (motive := fun acc : Cache × Nat × List Nat => Barred id x acc.1) _ _ h ?_
    intro acc hacc p _
    exact hacc.evict p.1 p.2 held

theorem Barred.discardExpired (h : Barred id x c) (id' : Identity) (held : Nat → Bool) :
    Barred id x (c.discardExpired id' held).1 := by
  unfold Cache.discardExpired
  split
  · split
    · exact h.evict id' _ held
    · exact h
  · exact h

theorem Barred.insert (h : Barred id x c) (hk : c.Keyed) {id' : Identity}
    (hnone : c.entryOf id' = none) {inst : Nat}
    (hnew : id' = id → c.evicted.lookup id = some x → inst ≠ x) (version : Lineage)
    (write : WriteState) (now : Nat) (held : Nat → Bool) :
    Barred id x (c.insert id' inst version write now held).1 := by
  let e : CacheEntry := ⟨inst, version, write, false, now, c.ticks + 1, c.serials⟩
  let c₀ : Cache :=
    { c with ticks := c.ticks + 1, entries := c.entries ++ [(id', e)], serials := c.serials + 1 }
  have unfolded : c.insert id' inst version write now held = c₀.enforceCapacity id' held := rfl
  have hk₀ : c₀.Keyed := keyed_append hk hnone e
  have hb₀ : Barred id x c₀ := by
    intro hlast e' he'
    rcases List.mem_append.mp ((entryOf_eq_some_iff hk₀).mp he') with hmem | hmem
    · exact h hlast e' ((entryOf_eq_some_iff hk).mpr hmem)
    · obtain ⟨rfl, rfl⟩ := Prod.mk.inj (List.mem_singleton.mp hmem)
      exact hnew rfl hlast
  rw [unfolded]
  exact hb₀.enforceCapacity id' held

theorem Barred.install (h : Barred id x c) (hk : c.Keyed) (id' : Identity) {inst : Nat}
    (hnew : inst ≠ x) (version : Lineage) (now : Nat) (held : Nat → Bool) :
    Barred id x (c.install id' inst version now held).1 := by
  cases hfound : c.entryOf id' with
  | some e₀ =>
    have hev : (c.install id' inst version now held).1.evicted = c.evicted := by
      unfold Cache.install; rw [hfound]; rfl
    exact h.rewrite hk hev hfound (install_some hfound inst version now held).1 (.inr hnew)
  | none =>
    rw [install_none hfound]
    exact h.insert hk hfound (fun _ _ => hnew) version .clean now held

theorem Barred.detachEntry (h : Barred id x c) (hk : c.Keyed) (id' : Identity) :
    Barred id x (c.detachEntry id').1 :=
  h.shrink hk (evicted_detachEntry c id') (detachEntry_sublist c id').1

end Barred

/-- Whether a call hands the cache instance `x` from outside: a load that found it, or a reload
offered to replace the live instance with it. -/
def Call.brings (x : Nat) : Call → Bool
  | .get _ _ _ (.found inst _) => inst == x
  | .refresh _ _ accept peer => !accept && peer == x
  | _ => false

/-- A change recorded through instance `x` of `id` is refused with an invariant fault before
anything is provisioned: a different instance is cached under `id`, or none is and `x` is the
instance last evicted under `id` while held (`evictedFault` is an invariant fault too). -/
def Refused (c : Cache) (id : Identity) (x now : Nat) : Prop :=
  (∃ msg, c.markExisting id x now = some (.error (.invariant msg))) ∨
    (c.markExisting id x now = none ∧ c.wasEvicted id x = true)

namespace Session

section Steps

variable {s s' : Session} {id : Identity} {x : Nat}

theorem barred_get {id' : Identity} {now : Nat} {held : Nat → Bool} {loaded : Loaded}
    (h : Barred id x s.cache) (hs : s.Sound) (hnew : (Call.get id' now held loaded).brings x = false)
    (hstep : s.step (.get id' now held loaded) = some s') : Barred id x s'.cache := by
  simp only [step] at hstep
  split at hstep
  · rename_i c _ hhit
    cases hstep
    obtain ⟨e₀, he₀, -, hent, -⟩ := hit?_spec hhit
    exact h.rewrite hs.keyed (evicted_hit? hhit) he₀ hent (.inl rfl)
  · cases loaded with
    | failed f =>
      cases hstep
      exact h.shrink hs.keyed rfl (List.Sublist.refl _)
    | absent =>
      cases hstep
      have hload : Barred id x s.cache.startLoad := h.shrink hs.keyed rfl (List.Sublist.refl _)
      exact hload.discardExpired id' held
    | found inst version =>
      cases hstep
      have hinst : inst ≠ x := by simpa [Call.brings] using hnew
      have hload : Barred id x s.cache.startLoad := h.shrink hs.keyed rfl (List.Sublist.refl _)
      exact hload.install hs.keyed id' hinst version now held

theorem barred_mark {id' : Identity} {inst now : Nat} {held : Nat → Bool}
    {provision : Outcome Lineage} (h : Barred id x s.cache) (hs : s.Sound)
    (hstep : s.step (.mark id' inst now held provision) = some s') : Barred id x s'.cache := by
  simp only [step] at hstep
  split at hstep
  · rename_i c _ hmark
    cases hstep
    obtain ⟨e₀, he₀, -, hent, -⟩ := markExisting_spec hmark
    exact h.rewrite hs.keyed (evicted_markExisting hmark) he₀ hent (.inl rfl)
  · cases hstep
    exact h
  · rename_i hnone
    split at hstep
    · cases hstep
      exact h
    · rename_i hfresh
      cases provision with
      | ok v =>
        cases hstep
        -- the evicted instance itself is refused, so a new entry is never `x` under `id`
        refine h.insert hs.keyed (markExisting_eq_none hnone) (fun hid hlast hx => ?_) v .clean now held
        subst hid hx
        exact hfresh (by simp [wasEvicted, hlast])
      | error f =>
        cases hstep
        exact h

theorem barred_startFlush {id' : Identity} (h : Barred id x s.cache) (hs : s.Sound)
    (hstep : s.step (.startFlush id') = some s') : Barred id x s'.cache := by
  simp only [step] at hstep
  split at hstep
  · cases hstep
  · split at hstep
    · rename_i c t hbegin
      cases hstep
      obtain ⟨e₀, he₀, -, rfl, -⟩ := beginFlush_spec hbegin
      exact h.rewrite hs.keyed rfl he₀ rfl (.inl rfl)
    · cases hstep
      exact h

theorem barred_endFlush {serial : Nat} {result : Outcome Lineage} (h : Barred id x s.cache)
    (hs : s.Sound) (hstep : s.step (.endFlush serial result) = some s') : Barred id x s'.cache := by
  simp only [step] at hstep
  split at hstep
  · rename_i id' t _
    cases hstep
    have hev := evicted_finishFlush s.cache id' t result
    by_cases hown : ∃ e₀, s.cache.entryOf id' = some e₀ ∧ e₀.serial = t.serial
    · obtain ⟨e₀, he₀, hs₀⟩ := hown
      exact h.rewrite hs.keyed hev he₀ (finishFlush_entries he₀ hs₀ result).1
        (by cases result <;> exact .inl rfl)
    · have same := finishFlush_other (fun e he hse => hown ⟨e, he, hse⟩) result
      dsimp only
      rw [same]
      exact h
  · cases hstep

theorem barred_expire {id' : Identity} (h : Barred id x s.cache) (hs : s.Sound)
    (hstep : s.step (.expire id') = some s') : Barred id x s'.cache := by
  simp only [step] at hstep
  cases hstep
  rcases expire_spec s.cache id' with same | ⟨e₀, he₀, -, hent⟩
  · dsimp only
    rw [same]
    exact h
  · exact h.rewrite hs.keyed (by rw [hent]; rfl) he₀ (congrArg Cache.entries hent) (.inl rfl)

theorem barred_refresh {id' : Identity} {version : Lineage} {accept : Bool} {peer : Nat}
    (h : Barred id x s.cache) (hs : s.Sound)
    (hnew : (Call.refresh id' version accept peer).brings x = false)
    (hstep : s.step (.refresh id' version accept peer) = some s') : Barred id x s'.cache := by
  simp only [step] at hstep
  split at hstep
  · rename_i inst hoffer
    cases hstep
    obtain ⟨e₀, he₀, -⟩ := offer_ok hoffer
    have hent := refresh_spec he₀ version (if accept then none else some peer)
    refine h.rewrite hs.keyed (by rw [hent]; rfl) he₀ (congrArg Cache.entries hent) ?_
    -- a reload keeps the live instance or replaces it with the new one
    cases accept
    · have hpeer : peer ≠ x := by simpa [Call.brings] using hnew
      exact .inr hpeer
    · exact .inl rfl
  · cases hstep
    exact h

end Steps

end Session

theorem Barred.step {s s' : Session} {id : Identity} {x : Nat} {call : Call}
    (h : Barred id x s.cache) (hs : s.Sound)
    (hnew : call.brings x = false) (hstep : s.step call = some s') : Barred id x s'.cache := by
  cases call with
  | get => exact Session.barred_get h hs hnew hstep
  | mark => exact Session.barred_mark h hs hstep
  | startFlush => exact Session.barred_startFlush h hs hstep
  | endFlush => exact Session.barred_endFlush h hs hstep
  | remove id' =>
    cases hstep
    exact h.detachEntry hs.keyed id'
  | discard id' =>
    cases hstep
    exact h.detachEntry hs.keyed id'
  | expire => exact Session.barred_expire h hs hstep
  | refresh => exact Session.barred_refresh h hs hnew hstep
  | sweep now held =>
    cases hstep
    exact h.sweep now held

/-- The run lemma: calls that bring in no `x` keep the bar. -/
theorem Barred.run {s s' : Session} {id : Identity} {x : Nat} {calls : List Call}
    (h : Barred id x s.cache) (hs : s.Reachable)
    (hnew : ∀ call ∈ calls, call.brings x = false) (hrun : s.run calls = some s') :
    Barred id x s'.cache := by
  induction calls generalizing s with
  | nil =>
    cases hrun
    exact h
  | cons call calls ih =>
    simp only [Session.run, Option.bind_eq_some_iff] at hrun
    obtain ⟨s₁, h₁, h₂⟩ := hrun
    exact ih (h.step hs.sound (hnew call List.mem_cons_self) h₁) (hs.step h₁)
      (fun c hc => hnew c (List.mem_cons_of_mem _ hc)) h₂

namespace Session

theorem refused_of_barred {s : Session} {id : Identity} {x : Nat} (h : Barred id x s.cache)
    (hlast : s.cache.evicted.lookup id = some x) (now : Nat) :
    Refused s.cache id x now ∧
      ∀ held provision, s.step (.mark id x now held provision) = some s := by
  have hevicted : s.cache.wasEvicted id x = true := by simp [wasEvicted, hlast]
  cases hfound : s.cache.entryOf id with
  | none =>
    have hnone : s.cache.markExisting id x now = none := by
      unfold markExisting; rw [hfound]
    refine ⟨.inr ⟨hnone, hevicted⟩, fun held provision => ?_⟩
    simp [step, hnone, hevicted]
  | some e =>
    have hne : (e.inst != x) = true := by simpa using h hlast e hfound
    have herr : s.cache.markExisting id x now =
        some (.error (.invariant ("a different instance of " ++ id.render ++ " is already cached"))) := by
      unfold markExisting; rw [hfound]; simp [hne]
    exact ⟨.inl ⟨_, herr⟩, fun held provision => by simp [step, herr]⟩

/-- **An instance evicted while held stays dead while the cache remembers it.** From a session
in which `id` has no entry (as right after an eviction of its entry), through calls whose loads
and reloads bring in new instances, to a session whose cache still names `x` as the last
instance evicted under `id` while held: a change recorded through `x` is refused with an
invariant fault, is never provisioned and changes nothing. -/
theorem evicted_instance_refused {s s' : Session} {calls : List Call} {id : Identity} {x : Nat}
    (hs : s.Reachable) (hgone : s.cache.entryOf id = none)
    (hnew : ∀ call ∈ calls, call.brings x = false) (hrun : s.run calls = some s')
    (hlast : s'.cache.evicted.lookup id = some x) (now : Nat) :
    Refused s'.cache id x now ∧
      ∀ held provision, s'.step (.mark id x now held provision) = some s' :=
  refused_of_barred ((barred_of_absent hgone).run hs hnew hrun) hlast now

/-- A cache of capacity one: an instance provisioned, then evicted while held by the load of
another identity; marking it again is refused. -/
theorem evicted_instance_refused_capacity_one :
    let a : Identity := ⟨"doc", "a", none⟩
    let b : Identity := ⟨"doc", "b", none⟩
    let held : Nat → Bool := fun n => n == 1
    let calls : List Call := [.mark a 1 0 held (.ok ⟨[]⟩), .get b 1 held (.found 2 ⟨[]⟩)]
    ∃ s', (start 1 none).run calls = some s' ∧ Refused s'.cache a 1 5 ∧
      ∀ held provision, s'.step (.mark a 1 5 held provision) = some s' := by
  intro a b held calls
  have hnew : ∀ call ∈ calls, call.brings 1 = false := by decide
  exact ⟨_, rfl, evicted_instance_refused (.start 1 none) rfl hnew rfl rfl 5⟩

/-- The record keeps one instance per identity: instance 1 of `a` is evicted while held, then a
reload of `a` brings instance 3, which is evicted while held in its turn; the record now names 3,
and a mark through the still held instance 1 is provisioned and makes an entry. -/
theorem evicted_instance_forgotten :
    let a : Identity := ⟨"doc", "a", none⟩
    let b : Identity := ⟨"doc", "b", none⟩
    let held : Nat → Bool := fun n => n == 1 || n == 3
    let loads : List Call := [.get a 0 held (.found 1 ⟨[]⟩), .get b 1 held (.found 2 ⟨[]⟩)]
    let reloads : List Call := [.get a 2 held (.found 3 ⟨[]⟩), .get b 3 held (.found 4 ⟨[]⟩)]
    ∃ s₁ s₂ s₃, (start 1 none).run loads = some s₁ ∧ s₁.cache.wasEvicted a 1 = true ∧
      s₁.run reloads = some s₂ ∧ s₂.step (.mark a 1 4 held (.ok ⟨[]⟩)) = some s₃ ∧
      (s₃.cache.entryOf a).map (·.inst) = some 1 :=
  ⟨_, _, _, rfl, rfl, rfl, rfl, rfl⟩

end Session

end Cache

end Stowage
