import Mathlib
import Stowage.Proofs.Cluster.SoleWrites
import Stowage.Proofs.Cluster.Conflicts
import Stowage.Proofs.Flusher.Cycle
/-!
Write-behind in a cluster where one node writes its kind alone.

Node `i` records a change of an object it caches by marking the entry dirty and queueing a write
of its identity in its flusher, whose worker runs only when asked to flush everything. A flush
request runs one cycle: each pending identity, in the order of first marks, at its first
attempt, then each retry with the attempts it failed. Every job writes a dirty entry whose
object no other job holds, so it either stores the encoding of its object and leaves the entry
clean, or uses up one injected failure and changes no entry and no record. `Ran` and `Cycled`
follow the cycle job by job; the failed jobs with attempts left wait for retry after it.

A session is what an application does around flushes: it changes objects, records changes of
cached objects, flushes and injects failures. Along a session the flusher keeps a backlog of
dirty identities holding each changed identity once, so a flush saves each once, and a save that
failed is made again by the next flush.
-/
open Std.Do

set_option mvcgen.warning false

namespace Stowage

open Stowage.Version

namespace Cache

/-- No object is cached under two identities. -/
def Unshared (c : Cache) : Prop :=
  ∀ x y ex ey, c.entryOf x = some ex → c.entryOf y = some ey → ex.inst = ey.inst → x = y

theorem Unshared.of_insts {c c' : Cache} (h : c.Unshared)
    (hinst : ∀ x ex, c'.entryOf x = some ex →
      ∃ e, c.entryOf x = some e ∧ e.inst = ex.inst) :
    c'.Unshared := by
  intro x y ex ey hx hy hxy
  obtain ⟨e, he, hei⟩ := hinst x ex hx
  obtain ⟨e', he', hei'⟩ := hinst y ey hy
  exact h x y e e' he he' (by rw [hei, hei', hxy])

theorem markExisting_others {c c' : Cache} (hk : c.Keyed) {id : Identity} {inst now : Nat}
    {previous : Lineage} (h : c.markExisting id inst now = some (.ok (c', previous))) {x : Identity}
    (hx : x ≠ id) : c'.entryOf x = c.entryOf x := by
  obtain ⟨e, -, -, hent, -⟩ := markExisting_spec h
  rw [entryOf_congr hent]
  exact entryOf_setEntry_ne hk _ hx

end Cache

namespace Cluster

variable {ω : Type} [Inhabited ω] (m : ObjectModel ω)

/-- Node `i` wrote `x` between `c` and `c'`: the entry cached at `c`, on the lineage stored for
`x`, is clean at `c'` on that lineage with the node's tag on top, and the store holds the
encoding of its object as it was at `c`, stamped with the new lineage. -/
def Flushed (i : Nat) (N : String) (M : Nat) (c c' : Cluster ω) (x : Identity) : Prop :=
  ∃ e rec, (c.node i).cache.entryOf x = some e ∧
    (∃ r, c.backend.get? x = some r ∧ r.version = e.version) ∧
    m.encode (m.beforePersist (c.obj e.inst)) = .ok rec ∧
    (c'.node i).cache.entryOf x =
      some { e with version := e.version.append N false M, write := .clean } ∧
    c'.backend.get? x = some (rec.stamp x (e.version.append N false M) c.clock x.owner)

omit [Inhabited ω] in
/-- Node `i` writes behind through its flusher `f`, which stands by with its lanes in order;
every identity queued in them has a dirty entry, and no object is cached under two
identities. -/
structure Backlog (i : Nat) (c : Cluster ω) (f : Flusher Identity Identity) : Prop where
  flusher : (c.node i).flusher = some f
  standby : f.Standby c.now
  lanes : f.Lanes
  dirty : ∀ x ∈ (Flusher.jobs f).map Prod.fst,
    ∃ e, (c.node i).cache.entryOf x = some e ∧ e.write = .dirty
  unshared : (c.node i).cache.Unshared

/-- Node `i`'s flush cycle from `c₀` once the jobs `done` have run in order, each an identity
with the attempts it failed before. The first jobs used up the failures injected at `c₀`, one
each, and left entries and records as they were; every later job was written. Nothing else
changed but the objects of the jobs and the store's counters. -/
structure Ran (n i : Nat) (K N : String) (M : Nat) (c₀ : Cluster ω)
    (done : List (Identity × Nat)) (c : Cluster ω) : Prop where
  sound : Good n c ∧ Coherent n i K N M c
  unwritten : ∀ x, x ∉ (done.drop c₀.backend.failures).map Prod.fst →
    (c.node i).cache.entryOf x = (c₀.node i).cache.entryOf x ∧
      c.backend.get? x = c₀.backend.get? x
  written : ∀ p ∈ done.drop c₀.backend.failures, Flushed m i N M c₀ c p.1
  objects : ∀ k, (∀ p ∈ done, ∀ e, (c₀.node i).cache.entryOf p.1 = some e →
    e.inst - 1 ≠ k - 1) → c.obj k = c₀.obj k
  writes : c.backend.writes = c₀.backend.writes + (done.drop c₀.backend.failures).length
  failures : c.backend.failures = c₀.backend.failures - done.length
  now : c.now = c₀.now
  wallStart : c.wallStart = c₀.wallStart

/-- Node `i`'s flush cycle from `c₀`, started by the flusher `f₀`, has run the jobs `done`,
and the flusher is that of the cycle: nothing pending, and the failed jobs with attempts left
waiting for retry. -/
structure Cycled (n i : Nat) (K N : String) (M : Nat) (c₀ : Cluster ω)
    (f₀ : Flusher Identity Identity) (done : List (Identity × Nat)) (c : Cluster ω) : Prop
    extends Ran m n i K N M c₀ done c where
  flusher : ∃ st answered,
    (c.node i).flusher = some (f₀.cycling c₀.backend.failures done st answered)

section Cycle

/-! ### One flush cycle -/

variable {n i : Nat} {K N : String} {M : Nat} {c₀ c : Cluster ω}

omit [Inhabited ω] in
theorem clock_eq (hnow : c.now = c₀.now) (hwall : c.wallStart = c₀.wallStart) :
    c.clock = c₀.clock := by
  unfold clock
  rw [hnow, hwall]

theorem Flushed.frame {c' : Cluster ω} {x : Identity} (h : Flushed m i N M c₀ c x)
    (hentry : (c'.node i).cache.entryOf x = (c.node i).cache.entryOf x)
    (hrecord : c'.backend.get? x = c.backend.get? x) : Flushed m i N M c₀ c' x := by
  obtain ⟨e, rec, he, hstored, henc, hentry', hrec⟩ := h
  exact ⟨e, rec, he, hstored, henc, hentry.trans hentry', hrecord.trans hrec⟩

theorem Ran.start (hs : Good n c₀ ∧ Coherent n i K N M c₀) :
    Ran m n i K N M c₀ [] c₀ where
  sound := hs
  unwritten _ _ := ⟨rfl, rfl⟩
  written p hp := by simp at hp
  objects _ _ := rfl
  writes := by simp
  failures := by simp
  now := rfl
  wallStart := rfl

variable {done : List (Identity × Nat)}

theorem Ran.putFlusher (h : Ran m n i K N M c₀ done c) (F : Option (Flusher Identity Identity)) :
    Ran m n i K N M c₀ done (c.modifyNode i fun ρ => { ρ with flusher := F }) := by
  have hcache : ∀ j, ((c.modifyNode i fun ρ => { ρ with flusher := F }).node j).cache =
      (c.node j).cache := cache_modifyNode fun _ => rfl
  obtain ⟨⟨hg, hco⟩, hun, hwr, hobj, hw, hf, hnow, hwall⟩ := h
  refine ⟨⟨hg.node rfl rfl, hco.keepCache i rfl rfl rfl rfl⟩, fun x hx => ?_, fun p hp => ?_,
    hobj, hw, hf, hnow, hwall⟩
  · rw [hcache]
    exact hun x hx
  · exact (hwr p hp).frame m (by rw [hcache]) rfl

/-- **One job of a cycle.** A dirty entry of an identity not run yet in the cycle, whose object
no earlier job holds, is written if the injected failures are used up, and otherwise fails on
one of them and changes no entry and no record. -/
theorem Ran.write (h : Ran m n i K N M c₀ done c) (hi : i < n) {x : Identity} {e : CacheEntry}
    (hx : x ∉ done.map Prod.fst) (he : (c₀.node i).cache.entryOf x = some e)
    (hd : e.write = .dirty)
    (hapart : ∀ p ∈ done, ∀ ep, (c₀.node i).cache.entryOf p.1 = some ep →
      ep.inst - 1 ≠ e.inst - 1)
    (hencode : ∀ o, ∃ rec, m.encode o = .ok rec) (a : Nat) :
    ∃ r c', (write m i x).run.run c = (r, c') ∧ Ran m n i K N M c₀ (done ++ [(x, a)]) c' ∧
      (c'.node i).flusher = (c.node i).flusher ∧
      if done.length < c₀.backend.failures then r = .error (.backend "injected failure")
      else r = .ok true := by
  have hxd : x ∉ (done.drop c₀.backend.failures).map Prod.fst := fun hm =>
    hx (((List.drop_sublist _ _).map _).subset hm)
  obtain ⟨hentry, hrecord⟩ := h.unwritten x hxd
  have he' : (c.node i).cache.entryOf x = some e := hentry.trans he
  have hobj : c.obj e.inst = c₀.obj e.inst := h.objects _ hapart
  obtain ⟨rec, hrec⟩ := hencode (m.beforePersist (c₀.obj e.inst))
  obtain ⟨c', hs', ho, hfr, hcase⟩ := write_outcome m h.sound hi he' hd (hobj ▸ hrec)
  -- whatever the outcome, other identities and objects are as they were
  have hother : ∀ y, y ≠ x → (c'.node i).cache.entryOf y = (c.node i).cache.entryOf y ∧
      c'.backend.get? y = c.backend.get? y := fun y hy =>
    ⟨(ho.caches i).others y hy, ho.records y hy⟩
  have hobj' : ∀ k, (∀ p ∈ done ++ [(x, a)], ∀ ep,
      (c₀.node i).cache.entryOf p.1 = some ep → ep.inst - 1 ≠ k - 1) →
      c'.obj k = c₀.obj k := by
    intro k hk
    have hxk : e.inst - 1 ≠ k - 1 := hk (x, a) (by simp) e he
    rw [hfr.1 k (Ne.symm hxk)]
    exact h.objects k fun p hp => hk p (List.mem_append_left _ hp)
  have hnow : c'.now = c₀.now := hfr.2.2.1.trans h.now
  have hwall : c'.wallStart = c₀.wallStart := hfr.2.2.2.trans h.wallStart
  by_cases hleft : done.length < c₀.backend.failures
  · -- an injected failure is left: the save fails and changes no entry and no record
    have hfail : c.backend.failures ≠ 0 := by
      rw [h.failures]
      omega
    rw [if_neg hfail] at hcase
    obtain ⟨hrun, hent, hrecs, hw, hf⟩ := hcase
    have hdrop₀ : done.drop c₀.backend.failures = [] := List.drop_eq_nil_of_le hleft.le
    have hdrop : (done ++ [(x, a)]).drop c₀.backend.failures = [] :=
      List.drop_eq_nil_of_le (by simp; omega)
    refine ⟨_, c', hrun, ⟨hs', fun y _ => ?_, fun p hp => by simp [hdrop] at hp, hobj', ?_, ?_,
      hnow, hwall⟩, hfr.2.1, by rw [if_pos hleft]⟩
    · have hrec_y : c'.backend.get? y = c.backend.get? y := by
        unfold Backend.get?
        rw [hrecs]
      have hy := h.unwritten y (by simp [hdrop₀])
      by_cases hyx : y = x
      · subst hyx
        exact ⟨hent.trans he.symm, hrec_y.trans hy.2⟩
      · exact ⟨(hother y hyx).1.trans hy.1, hrec_y.trans hy.2⟩
    · rw [hw, h.writes, hdrop, hdrop₀]
    · rw [hf, h.failures]
      simp only [List.length_append, List.length_singleton]
      omega
  · -- the injected failures are used up: the save goes through
    have hnofail : c.backend.failures = 0 := by
      rw [h.failures]
      omega
    rw [if_pos hnofail] at hcase
    obtain ⟨hrun, hent, hrec', hw, hf⟩ := hcase
    have hdrop : (done ++ [(x, a)]).drop c₀.backend.failures =
        done.drop c₀.backend.failures ++ [(x, a)] := List.drop_append_of_le_length (by omega)
    refine ⟨_, c', hrun, ⟨hs', fun y hy => ?_, fun p hp => ?_, hobj', ?_, ?_, hnow, hwall⟩,
      hfr.2.1, by rw [if_neg hleft]⟩
    · rw [hdrop, List.map_append, List.mem_append, not_or] at hy
      have hyx : y ≠ x := fun hyx => hy.2 (by simp [hyx])
      have hy₀ := h.unwritten y hy.1
      exact ⟨(hother y hyx).1.trans hy₀.1, (hother y hyx).2.trans hy₀.2⟩
    · rw [hdrop, List.mem_append] at hp
      rcases hp with hp | hp
      · have hpx : p.1 ≠ x := fun hpx =>
          hx (hpx ▸ List.mem_map_of_mem ((List.drop_sublist _ _).subset hp))
        exact (h.written p hp).frame m (hother p.1 hpx).1 (hother p.1 hpx).2
      · -- the job just written
        obtain rfl : p = (x, a) := List.mem_singleton.mp hp
        obtain ⟨r₀, hr₀, hv₀⟩ := h.sound.2.cached.version (h.sound.1.caches i).keyed he'
        refine ⟨e, rec, he, ⟨r₀, hrecord.symm.trans hr₀, hv₀⟩, hrec, hent, ?_⟩
        rw [hrec', clock_eq h.now h.wallStart]
    · rw [hw, h.writes, hdrop, List.length_append, List.length_singleton]
      omega
    · rw [hf, List.length_append, List.length_singleton]
      omega

theorem execute_write (i : Nat) {c c₁ : Cluster ω} {x : Identity} {r : Outcome Bool}
    (hw : (write m i x).run.run c = (r, c₁)) (attempts : Nat) :
    (flushHost m i).execute c x x attempts =
      (c₁.modifyNode i fun ρ => { ρ with
        flusher :=
          some (((c₁.node i).flusher.getD default).settle x x attempts (r.map fun _ => ())) },
        true) := by
  simp [FlushHost.execute, flushHost, hw, FlushHost.modify]

variable {f₀ : Flusher Identity Identity}

/-- **The step lemma of a cycle.** Node `i`'s worker runs the next job of the cycle: the write
goes through or fails on an injected failure, and settling it leaves the flusher of the cycle
one job further. -/
theorem Cycled.step (h : Cycled m n i K N M c₀ f₀ done c) (hb : Backlog i c₀ f₀)
    (hg₀ : Good n c₀) (hi : i < n) {x : Identity} {a : Nat} {rest : List (Identity × Nat)}
    (hjob : Flusher.jobs f₀ = done ++ (x, a) :: rest)
    (hencode : ∀ o, ∃ rec, m.encode o = .ok rec) :
    ∃ c', (flushHost m i).execute c x x a = (c', true) ∧
      Cycled m n i K N M c₀ f₀ (done ++ [(x, a)]) c' := by
  -- the jobs of a cycle are distinct, dirty, and hold distinct objects
  have hnodup := Flusher.jobs_keys hb.lanes
  rw [hjob, List.map_append, List.map_cons, List.nodup_append] at hnodup
  have hx : x ∉ done.map Prod.fst := fun hm => hnodup.2.2 x hm x List.mem_cons_self rfl
  obtain ⟨e, he, hd⟩ := hb.dirty x (by rw [hjob]; simp)
  have hapart : ∀ p ∈ done, ∀ ep, (c₀.node i).cache.entryOf p.1 = some ep →
      ep.inst - 1 ≠ e.inst - 1 := by
    intro p hp ep hep hsame
    have hpx : p.1 ≠ x := fun hpx => hx (hpx ▸ List.mem_map_of_mem hp)
    have hkeyed := (hg₀.caches i).keyed
    have hp₀ := ((hg₀.objects i).inst hkeyed hep).1
    have hx₀ := ((hg₀.objects i).inst hkeyed he).1
    exact hpx (hb.unshared _ _ _ _ hep he (by omega))
  obtain ⟨r, c₁, hrun, hran, hfl₁, hr⟩ := h.toRan.write m hi hx he hd hapart hencode a
  -- settling the outcome takes the flusher one job further
  obtain ⟨st, answered, hfl⟩ := h.flusher
  have hidle : f₀.inFlight = [] := hb.standby.idle
  obtain ⟨st', hsettle⟩ : ∃ st', (f₀.cycling c₀.backend.failures done st answered).settle x x a
      (r.map fun _ => ()) = f₀.cycling c₀.backend.failures (done ++ [(x, a)]) st' answered := by
    split at hr
    · rw [hr]
      exact Flusher.settle_cycling_error hidle ‹_› hx rfl a st answered
    · rw [hr]
      exact Flusher.settle_cycling_ok hidle (by omega) x a st answered
  refine ⟨_, execute_write m i hrun a, ⟨hran.putFlusher m _, st', answered, ?_⟩⟩
  rw [node_modifyNode_self _ _ _ (hran.sound.1.size ▸ hi), hfl₁, hfl]
  simp [hsettle]

theorem Cycled.count (h : Cycled m n i K N M c₀ f₀ done c) (hi : i < n)
    (g : FlusherStats → FlusherStats) :
    Cycled m n i K N M c₀ f₀ done ((flushHost m i).modify c fun f => f.count g) := by
  obtain ⟨st, answered, hfl⟩ := h.flusher
  have hlen : i < c.nodes.length := h.sound.1.size ▸ hi
  refine ⟨h.toRan.putFlusher m _, g st, answered, ?_⟩
  simp [flushHost, FlushHost.modify, hlen, hfl]

theorem Cycled.complete (h : Cycled m n i K N M c₀ f₀ done c) (hi : i < n) :
    Cycled m n i K N M c₀ f₀ done
      ((flushHost m i).modify c fun f => { f with completed := f.started }) := by
  obtain ⟨st, answered, hfl⟩ := h.flusher
  have hlen : i < c.nodes.length := h.sound.1.size ▸ hi
  refine ⟨h.toRan.putFlusher m _, st, f₀.requested + 1, ?_⟩
  simp [flushHost, FlushHost.modify, hlen, hfl, Flusher.cycling]

/-- **A flush request runs every job once.** Node `i`'s worker standing by answers a flush
request with one cycle: the pending identities at their first attempt, then the retries, each
written once or failing on one of the injected failures, in that order. -/
theorem cycle_cycled (hs₀ : Good n c₀ ∧ Coherent n i K N M c₀) (hi : i < n)
    (hb : Backlog i c₀ f₀) (hencode : ∀ o, ∃ rec, m.encode o = .ok rec) :
    ∃ c, (flushHost m i).cycle ((flushHost m i).modify c₀ Flusher.request) c₀.now = (c, true) ∧
      Cycled m n i K N M c₀ f₀ (Flusher.jobs f₀) c := by
  have hlen : i < c₀.nodes.length := hs₀.1.size ▸ hi
  have hflusher : (flushHost m i).flusher ((flushHost m i).modify c₀ Flusher.request) =
      f₀.request := by
    simp [flushHost, FlushHost.modify, hlen, hb.flusher]
  unfold FlushHost.cycle
  rw [hflusher, Flusher.startCycle_request hb.standby]
  dsimp only
  -- the batch: each pending identity at its first attempt
  have hbatch_step : ∀ pre k t post s, f₀.pending.toList = pre ++ (k, t) :: post →
      Cycled m n i K N M c₀ f₀ (pre.map fun p => (p.1, 0)) s →
      ∃ s', (flushHost m i).execute s k t 0 = (s', true) ∧
        Cycled m n i K N M c₀ f₀ ((pre ++ [(k, t)]).map fun p => (p.1, 0)) s' := by
    intro pre k t post s hsplit hs
    -- a pending task writes its own identity
    have ht : t = k :=
      hb.lanes.pendingTied.toList (k, t) (hsplit ▸ List.mem_append_right _ List.mem_cons_self)
    subst ht
    have hjob : Flusher.jobs f₀ = pre.map (fun p => (p.1, 0)) ++ (t, 0) ::
        (post.map (fun p => (p.1, 0)) ++ f₀.retry.toList.map fun p => (p.1, p.2.attempts)) := by
      rw [Flusher.jobs_eq_toList, hsplit]
      simp
    obtain ⟨c', hexec, hc'⟩ := hs.step m hb hs₀.1 hi hjob hencode
    exact ⟨c', hexec, by simpa using hc'⟩
  -- the cycle starts with no job run, its flusher holding nothing
  have hstart : Cycled m n i K N M c₀ f₀
      (([] : List (Identity × Identity)).map fun p => (p.1, 0))
      ((flushHost m i).update ((flushHost m i).modify c₀ Flusher.request)
        { f₀ with
          requested := f₀.requested + 1
          started := f₀.requested + 1
          pending := KeyedQueue.empty
          retry := KeyedQueue.empty }) := by
    refine ⟨((Ran.start m hs₀).putFlusher m _).putFlusher m _, f₀.stats, f₀.completed, ?_⟩
    simp [flushHost, FlushHost.modify, hlen, Flusher.cycling, Flusher.requeued,
      KeyedQueue.empty, KeyedQueue.ofSlots]
  obtain ⟨s₂, hbatch, hs₂⟩ := (flushHost m i).runBatch_inv
    (fun pre => Cycled m n i K N M c₀ f₀ (pre.map fun p => (p.1, 0)))
    f₀.pending.toList hbatch_step hstart
  rw [hbatch]
  dsimp only
  -- the retries: each with the attempts it failed before, counted as it runs
  have hretry_step : ∀ pre k r post s, f₀.retry.toList = pre ++ (k, r) :: post →
      Cycled m n i K N M c₀ f₀ (f₀.pending.toList.map (fun p => (p.1, 0)) ++
        pre.map fun p => (p.1, p.2.attempts)) s →
      ∃ s', (flushHost m i).execute ((flushHost m i).modify s fun f =>
          f.count fun st => { st with retried := st.retried + 1 }) k r.task r.attempts =
            (s', true) ∧
        Cycled m n i K N M c₀ f₀ (f₀.pending.toList.map (fun p => (p.1, 0)) ++
          (pre ++ [(k, r)]).map fun p => (p.1, p.2.attempts)) s' := by
    intro pre k r post s hsplit hs
    -- a retry writes its own identity
    have hr : r.task = k :=
      hb.lanes.retryTied.toList (k, r) (hsplit ▸ List.mem_append_right _ List.mem_cons_self)
    have hjob : Flusher.jobs f₀ = (f₀.pending.toList.map (fun p => (p.1, 0)) ++
        pre.map fun p => (p.1, p.2.attempts)) ++ (k, r.attempts) ::
          post.map fun p => (p.1, p.2.attempts) := by
      rw [Flusher.jobs_eq_toList, hsplit]
      simp
    obtain ⟨c', hexec, hc'⟩ := (hs.count m hi _).step m hb hs₀.1 hi hjob hencode
    rw [hr]
    exact ⟨c', hexec, by simpa using hc'⟩
  obtain ⟨s₃, hretries, hs₃⟩ := (flushHost m i).runRetries_inv
    (fun pre => Cycled m n i K N M c₀ f₀ (f₀.pending.toList.map (fun p => (p.1, 0)) ++
      pre.map fun p => (p.1, p.2.attempts)))
    f₀.retry.toList hretry_step (by simpa using hs₂)
  rw [hretries, Flusher.jobs_eq_toList]
  exact ⟨_, rfl, hs₃.complete m hi⟩

theorem flushAll_run (i : Nat) (c : Cluster ω) : (flushAll m i).run.run c =
    (.ok (), if (c.node i).flusher.isSome then (flushHost m i).flushNow c c.now else c) := rfl

/-- **Flushing everything runs one cycle.** Asked to flush everything, node `i`'s flusher
standing by runs one cycle over all its jobs and then has no reason to run another. -/
theorem flushAll_cycled (hs₀ : Good n c₀ ∧ Coherent n i K N M c₀) (hi : i < n)
    (hb : Backlog i c₀ f₀) (hencode : ∀ o, ∃ rec, m.encode o = .ok rec) :
    ∃ c, (flushAll m i).run.run c₀ = (.ok (), c) ∧
      Cycled m n i K N M c₀ f₀ (Flusher.jobs f₀) c := by
  obtain ⟨c, hcycle, hc⟩ := cycle_cycled m hs₀ hi hb hencode
  have hlen : i < c₀.nodes.length := hs₀.1.size ▸ hi
  have hmod : (flushHost m i).flusher ((flushHost m i).modify c₀ Flusher.request) =
      ((flushHost m i).flusher c₀).request := by
    simp [flushHost, FlushHost.modify, hlen]
  have hstand : ((flushHost m i).flusher c₀).Standby c₀.now := by
    simpa [flushHost, hb.flusher] using hb.standby
  -- after the cycle the flusher stands by with nothing requested or pending
  have hnow := FlushHost.flushNow_eq_cycle (flushHost m i) hmod hstand fun s' hs' => by
    rw [hcycle] at hs'
    obtain rfl : c = s' := congrArg Prod.fst hs'
    obtain ⟨st, answered, hfl⟩ := hc.flusher
    have hf : (flushHost m i).flusher c =
        f₀.cycling c₀.backend.failures (Flusher.jobs f₀) st answered := by
      simp [flushHost, hfl]
    rw [hf]
    exact ⟨hb.standby.cycling st answered,
      Flusher.due_of_standby (hb.standby.cycling st answered) (Nat.le_refl _) rfl⟩
  refine ⟨c, ?_, hc⟩
  rw [flushAll_run, hb.flusher, Option.isSome_some, if_pos rfl, hnow, hcycle]

theorem Ran.inst (h : Ran m n i K N M c₀ done c) {x : Identity} {ex : CacheEntry}
    (hx : (c.node i).cache.entryOf x = some ex) :
    ∃ e, (c₀.node i).cache.entryOf x = some e ∧ e.inst = ex.inst := by
  by_cases hw : x ∈ (done.drop c₀.backend.failures).map Prod.fst
  · obtain ⟨p, hp, rfl⟩ := List.mem_map.mp hw
    obtain ⟨e, rec, he, -, -, hent, -⟩ := h.written p hp
    rw [hent] at hx
    cases hx
    exact ⟨e, he, rfl⟩
  · exact ⟨ex, (h.unwritten x hw).1 ▸ hx, rfl⟩

theorem Cycled.backlog (h : Cycled m n i K N M c₀ f₀ (Flusher.jobs f₀) c)
    (hb : Backlog i c₀ f₀) :
    ∃ st answered, Backlog i c (f₀.cycling c₀.backend.failures (Flusher.jobs f₀) st answered) := by
  obtain ⟨st, answered, hfl⟩ := h.flusher
  have hnodup := Flusher.jobs_keys hb.lanes
  rw [← List.take_append_drop c₀.backend.failures (Flusher.jobs f₀), List.map_append]
    at hnodup
  -- the retry lane holds failed jobs only
  have hretry : (f₀.cycling c₀.backend.failures (Flusher.jobs f₀) st answered).retry.keys.Sublist
      (((Flusher.jobs f₀).take c₀.backend.failures).map Prod.fst) :=
    Flusher.keys_requeued_sublist _ _
  refine ⟨st, answered, hfl, h.now ▸ hb.standby.cycling st answered, ⟨KeyedQueue.tied_empty _,
    Flusher.requeued_tied _ _, List.nodup_nil, (List.nodup_append.mp hnodup).1.sublist hretry,
    fun _ hx => by simp [Flusher.cycling] at hx⟩, fun x hx => ?_, ?_⟩
  · -- a job waiting for retry failed, so its entry is as it was
    rw [Flusher.keys_jobs (f := f₀.cycling c₀.backend.failures (Flusher.jobs f₀) st answered)
      List.nodup_nil ((List.nodup_append.mp hnodup).1.sublist hretry)] at hx
    simp only [Flusher.cycling, KeyedQueue.keys_empty, List.nil_append] at hx
    have hfailed := hretry.subset hx
    have hkept : x ∉ ((Flusher.jobs f₀).drop c₀.backend.failures).map Prod.fst := fun hx' =>
      (List.nodup_append.mp hnodup).2.2 x hfailed x hx' rfl
    rw [(h.unwritten x hkept).1]
    refine hb.dirty x ?_
    rw [← List.take_append_drop c₀.backend.failures (Flusher.jobs f₀), List.map_append]
    exact List.mem_append_left _ hfailed
  · exact Cache.Unshared.of_insts hb.unshared fun x ex hx => h.inst m hx

variable (i) in
/-- Node `i` is ready to write behind: its flusher stands by with both lanes empty, and no
object is cached under two identities. -/
structure Ready (c : Cluster ω) : Prop where
  flusher : ∃ f : Flusher Identity Identity, (c.node i).flusher = some f ∧ f.Standby c.now ∧
    f.pending.slots = [] ∧ f.retry.slots = []
  unshared : (c.node i).cache.Unshared


/-! ### Sessions -/

theorem update_queued (i : Nat) (c₀ : Cluster ω) {e : CacheEntry} {cache : Cache}
    (hmark : (c₀.node i).cache.markExisting (m.identity (c₀.obj e.inst)) e.inst c₀.now =
      some (.ok (cache, e.version)))
    (hkind : (m.identity (c₀.obj e.inst)).kind = (c₀.node i).kind)
    {f : Flusher Identity Identity} (hf : (c₀.node i).flusher = some f)
    (hopen : f.closed = false) (hi : i < c₀.nodes.length) :
    ⦃fun c => ⌜c = c₀⌝⦄ update m i e.inst
    ⦃post⟨fun _ c => ⌜c = (c₀.modifyNode i fun r => { r with cache }).modifyNode i fun r =>
        { r with flusher := some (f.enqueue (m.identity (c₀.obj e.inst))
          (m.identity (c₀.obj e.inst)) c₀.now).1 }⌝,
      fun _ _ => ⌜False⌝⟩⦄ := by
  intro s hs
  simp only [SPred.down_pure] at hs
  subst hs
  have hmarks := markUpdating_existing m i (m.identity (s.obj e.inst)) s hmark
  have hcheck : (s.node i).checkKind (m.identity (s.obj e.inst)) = .ok () := by
    simp [Repository.checkKind, hkind]
  have hfl : ((s.modifyNode i fun r => { r with cache }).node i).flusher = some f := by
    rw [node_modifyNode_self _ _ _ hi]
    exact hf
  have henq : f.enqueue (m.identity (s.obj e.inst)) (m.identity (s.obj e.inst)) s.now =
      ((f.enqueue (m.identity (s.obj e.inst)) (m.identity (s.obj e.inst)) s.now).1, .queued) := by
    refine Prod.ext rfl ?_
    unfold Flusher.enqueue
    simp only [hopen, Bool.false_eq_true, ↓reduceIte]
    split <;> rfl
  mvcgen [update, identityFor, lift, hmarks, onNode, hcheck, hfl, henq]
  case vc1.h_1.post.success.isTrue =>
    -- the entry was cached, so nothing is created
    obtain ⟨rfl, -⟩ := ‹_ ∧ _›
    simp at ‹(_ : Lineage × Bool).2 = true›
  case vc2.h_1.post.success.isFalse.h_1.h_1 =>
    rename_i hmk f₁ hf₁ f₂ henq₂ _
    obtain ⟨-, rfl⟩ := hmk
    rw [hfl] at hf₁
    cases hf₁
    cases congrArg Prod.fst (henq.symm.trans henq₂)
    rfl
  case vc3.h_1.post.success.isFalse.h_1.h_2 =>
    -- an open flusher queues the write
    rename_i hmk f₁ hf₁ _ henq₂
    obtain ⟨-, rfl⟩ := hmk
    rw [hfl] at hf₁
    cases hf₁
    cases congrArg Prod.snd (henq.symm.trans henq₂)
  case vc4.h_1.post.success.isFalse.h_2 =>
    rename_i hmk hf₁
    obtain ⟨-, rfl⟩ := hmk
    rw [hfl] at hf₁
    cases hf₁
  case vc5.h_2 =>
    -- the object's identity is of the node's kind
    rename_i hck
    cases hcheck.symm.trans hck


omit [Inhabited ω] in
theorem Backlog.modifyObj {f : Flusher Identity Identity} (h : Backlog i c f) (k : Nat)
    (g : ω → ω) : Backlog i (c.modifyObj k g) f :=
  ⟨h.flusher, h.standby, h.lanes, h.dirty, h.unshared⟩

omit [Inhabited ω] in
theorem Backlog.withBackend {f : Flusher Identity Identity} (h : Backlog i c f) (b : Backend) :
    Backlog i { c with backend := b } f :=
  ⟨h.flusher, h.standby, h.lanes, h.dirty, h.unshared⟩

omit [Inhabited ω] in
theorem Backlog.update {f : Flusher Identity Identity} (h : Backlog i c f)
    (hk : (c.node i).cache.Keyed) {id : Identity} {e : CacheEntry}
    (he : (c.node i).cache.entryOf id = some e) {cache : Cache}
    (hmark : (c.node i).cache.markExisting id e.inst c.now = some (.ok (cache, e.version)))
    (hi : i < c.nodes.length) :
    Backlog i ((c.modifyNode i fun r => { r with cache }).modifyNode i fun r =>
      { r with flusher := some (f.enqueue id id c.now).1 }) (f.enqueue id id c.now).1 := by
  have hnode : ((c.modifyNode i fun r => { r with cache }).modifyNode i fun r =>
      { r with flusher := some (f.enqueue id id c.now).1 }).node i =
        { c.node i with cache, flusher := some (f.enqueue id id c.now).1 } := by
    rw [node_modifyNode_self _ _ _ (by simpa using hi), node_modifyNode_self _ _ _ hi]
  obtain ⟨cache', hmark', hentry⟩ := Cache.markExisting_of_entryOf hk he c.now
  rw [hmark] at hmark'
  obtain rfl : cache = cache' := by simpa using hmark'
  refine ⟨by rw [hnode], h.standby.enqueue id id c.now, h.lanes.enqueue h.standby id c.now,
    fun x hx => ?_, ?_⟩
  · -- the marked identity is dirty now, and every other queued one was already
    rw [hnode]
    by_cases hxid : x = id
    · subst hxid
      exact ⟨_, hentry, rfl⟩
    · rw [Cache.markExisting_others hk hmark hxid]
      rcases Flusher.mem_jobs_enqueue h.standby h.lanes.pendingNodup h.lanes.retryNodup hx
        with hx | hx
      · exact absurd hx hxid
      · exact h.dirty x hx
  · rw [hnode]
    refine Cache.Unshared.of_insts h.unshared fun x ex hx => ?_
    by_cases hxid : x = id
    · subst hxid
      rw [hentry] at hx
      cases hx
      exact ⟨e, he, rfl⟩
    · rw [Cache.markExisting_others hk hmark hxid] at hx
      exact ⟨ex, hx, rfl⟩

omit [Inhabited ω] in
theorem Ready.backlog (h : Ready i c) :
    ∃ f, Backlog i c f ∧ f.pending.keys = [] := by
  obtain ⟨f, hf, hstand, hp, hr⟩ := h.flusher
  have hpk : f.pending.keys = [] := KeyedQueue.isEmpty_iff.mp (by simp [KeyedQueue.isEmpty, hp])
  have hrk : f.retry.keys = [] := KeyedQueue.isEmpty_iff.mp (by simp [KeyedQueue.isEmpty, hr])
  refine ⟨f, ⟨hf, hstand, ⟨fun s hs => by simp [hp] at hs, fun s hs => by simp [hr] at hs,
    hpk ▸ List.nodup_nil, hrk ▸ List.nodup_nil, fun k hk => by simp [hpk] at hk⟩,
    fun x hx => ?_, h.unshared⟩, hpk⟩
  rw [Flusher.keys_jobs (hpk ▸ List.nodup_nil) (hrk ▸ List.nodup_nil), hpk, hrk] at hx
  cases hx

variable (i) in
/-- The clusters an application reaches from `c₀` by changing objects, recording changes of
objects node `i` caches, asking node `i` to flush everything and injecting store failures,
with the identities whose changes were recorded since the last flush. -/
inductive Session (c₀ : Cluster ω) : Cluster ω → List Identity → Prop
  | start : Session c₀ c₀ []
  | edit {c : Cluster ω} {ids : List Identity} (k : Nat) (g : ω → ω) :
      Session c₀ c ids → Session c₀ (c.modifyObj k g) ids
  | record {c : Cluster ω} {ids : List Identity} (k : Nat) : Session c₀ c ids →
      (c.node i).cache.peek (m.identity (c.obj k)) = some k →
      Session c₀ ((update m i k).run.run c).2 (ids ++ [m.identity (c.obj k)])
  | flush {c : Cluster ω} {ids : List Identity} :
      Session c₀ c ids → Session c₀ ((flushAll m i).run.run c).2 []
  | inject {c : Cluster ω} {ids : List Identity} (count : Nat) :
      Session c₀ c ids → Session c₀ { c with backend := c.backend.failNext count } ids

omit [Inhabited ω] in
theorem eraseDups_concat (l : List Identity) (x : Identity) :
    (l ++ [x]).eraseDups = if x ∈ l.eraseDups then l.eraseDups else l.eraseDups ++ [x] := by
  rw [List.eraseDups_append]
  by_cases hx : x ∈ l
  · simp [List.removeAll, hx, List.mem_eraseDups.mpr hx]
  · have hx' : x ∉ l.eraseDups := fun h => hx (List.mem_eraseDups.mp h)
    simp [List.removeAll, List.eraseDups_cons, hx, hx']

/-- **The run lemma of a session.** Along a session node `i` keeps writing behind: the cluster
stays coherent, the flusher stands by with a backlog, and its pending lane holds each identity
changed since the last flush once, in the order of their first changes. -/
theorem Session.backlog (hs₀ : Good n c₀ ∧ Coherent n i K N M c₀) (hi : i < n)
    (hready : Ready i c₀) (hencode : ∀ o, ∃ rec, m.encode o = .ok rec) {ids : List Identity}
    (h : Session m i c₀ c ids) :
    (Good n c ∧ Coherent n i K N M c) ∧
      ∃ f, Backlog i c f ∧ f.pending.keys = ids.eraseDups := by
  induction h with
  | start =>
    obtain ⟨f, hb, hkeys⟩ := hready.backlog
    exact ⟨hs₀, f, hb, hkeys⟩
  | edit k g _ ih =>
    obtain ⟨⟨hg, hco⟩, f, hb, hkeys⟩ := ih
    exact ⟨⟨hg.modifyObj k g, hco.modifyObj k g⟩, f, hb.modifyObj k g, hkeys⟩
  | @record c ids k _ hpeek ih =>
    obtain ⟨hc, f, hb, hkeys⟩ := ih
    have hk := (hc.1.caches i).keyed
    have hlen : i < c.nodes.length := hc.1.size ▸ hi
    -- the object is cached under its identity
    obtain ⟨e, he, rfl⟩ : ∃ e, (c.node i).cache.entryOf (m.identity (c.obj k)) = some e ∧
        e.inst = k := by
      simpa [Cache.peek] using hpeek
    obtain ⟨cache, hmark, -⟩ := Cache.markExisting_of_entryOf hk he c.now
    have hkind : (m.identity (c.obj e.inst)).kind = (c.node i).kind :=
      (hc.2.kinds i).version hk he
    have hbounds := (hc.1.objects i).inst hk he
    obtain ⟨u, c', hrun, rfl⟩ := run_ok_of_triple
      (update_queued m i c hmark hkind hb.flusher hb.standby.unclosed hlen) rfl
    have hc' := coherent_of_triple (update_coherent m (n := n) (i := i) (K := K) (N := N) (M := M)
      hi e.inst) ⟨hc, hbounds⟩
    rw [hrun] at hc' ⊢
    refine ⟨hc', _, hb.update hk he hmark hlen, ?_⟩
    rw [Flusher.pending_keys_enqueue hb.standby, hkeys, eraseDups_concat]
  | flush _ ih =>
    obtain ⟨hc, f, hb, -⟩ := ih
    obtain ⟨c', hrun, hcyc⟩ := flushAll_cycled m hc hi hb hencode
    obtain ⟨st, answered, hb'⟩ := hcyc.backlog m hb
    rw [hrun]
    exact ⟨hcyc.sound, _, hb', rfl⟩
  | inject count _ ih =>
    obtain ⟨⟨hg, hco⟩, f, hb, hkeys⟩ := ih
    exact ⟨⟨hg.of_frame rfl rfl le_rfl, hco.of_records rfl rfl⟩, f, hb.withBackend _, hkeys⟩


variable {ids : List Identity}

theorem Session.flush_writes (hs₀ : Good n c₀ ∧ Coherent n i K N M c₀) (hi : i < n)
    (hready : Ready i c₀) (hencode : ∀ o, ∃ rec, m.encode o = .ok rec)
    (h : Session m i c₀ c ids) {f : Flusher Identity Identity} (hf : (c.node i).flusher = some f)
    (hF : c.backend.failures = 0) :
    (ids.eraseDups ++ f.retry.keys).Nodup ∧
      ((flushAll m i).run.run c).2.backend.writes =
        c.backend.writes + ids.eraseDups.length + f.retry.size ∧
      ∀ x ∈ ids ++ f.retry.keys, Flushed m i N M c ((flushAll m i).run.run c).2 x := by
  obtain ⟨hc, f', hb, hkeys⟩ := h.backlog m hs₀ hi hready hencode
  obtain rfl : f' = f := Option.some.inj (hb.flusher.symm.trans hf)
  obtain ⟨c', hrun, hcyc⟩ := flushAll_cycled m hc hi hb hencode
  rw [hrun]
  have hjobs : (Flusher.jobs f').map Prod.fst = ids.eraseDups ++ f'.retry.keys := by
    rw [Flusher.keys_jobs hb.lanes.pendingNodup hb.lanes.retryNodup, hkeys]
  -- with no failure injected every job is written
  have hdrop : (Flusher.jobs f').drop c.backend.failures = Flusher.jobs f' := by
    rw [hF, List.drop_zero]
  refine ⟨hjobs ▸ Flusher.jobs_keys hb.lanes, ?_, fun x hx => ?_⟩
  · have hlen := congrArg List.length hjobs
    rw [List.length_map, List.length_append] at hlen
    rw [hcyc.writes, hdrop, hlen, KeyedQueue.size_eq_length_keys, Nat.add_assoc]
  · have hx' : x ∈ (Flusher.jobs f').map Prod.fst := by
      rw [hjobs, List.mem_append, List.mem_eraseDups]
      exact List.mem_append.mp hx
    obtain ⟨p, hp, rfl⟩ := List.mem_map.mp hx'
    rw [← hdrop] at hp
    exact hcyc.written p hp

theorem Session.flush_failed (hs₀ : Good n c₀ ∧ Coherent n i K N M c₀) (hi : i < n)
    (hready : Ready i c₀) (hencode : ∀ o, ∃ rec, m.encode o = .ok rec)
    (h : Session m i c₀ c ids) {f : Flusher Identity Identity} (hf : (c.node i).flusher = some f)
    {p : Identity × Nat} (hp : p ∈ (Flusher.jobs f).take c.backend.failures)
    (hleft : Flusher.retriesLeft f.options.retryLimit p.2 = true) :
    (((flushAll m i).run.run c).2.node i).cache.entryOf p.1 = (c.node i).cache.entryOf p.1 ∧
      ((flushAll m i).run.run c).2.backend.get? p.1 = c.backend.get? p.1 ∧
      (∃ e, (c.node i).cache.entryOf p.1 = some e ∧ e.write = .dirty) ∧
      (∃ f', (((flushAll m i).run.run c).2.node i).flusher = some f' ∧
        (p.1, p.2 + 1) ∈ f'.retry.attempts) ∧
      (((flushAll m i).run.run c).2.backend.failures = 0 →
        Flushed m i N M ((flushAll m i).run.run c).2
          ((flushAll m i).run.run ((flushAll m i).run.run c).2).2 p.1) := by
  have hnext := h.flush
  obtain ⟨hc, f', hb, -⟩ := h.backlog m hs₀ hi hready hencode
  obtain rfl : f' = f := Option.some.inj (hb.flusher.symm.trans hf)
  obtain ⟨c', hrun, hcyc⟩ := flushAll_cycled m hc hi hb hencode
  rw [hrun] at hnext ⊢
  -- a failed job is not among the written ones
  have hnodup := Flusher.jobs_keys hb.lanes
  rw [← List.take_append_drop c.backend.failures (Flusher.jobs f'), List.map_append] at hnodup
  have hfailed : p.1 ∈ ((Flusher.jobs f').take c.backend.failures).map Prod.fst :=
    List.mem_map_of_mem hp
  have hkept : p.1 ∉ ((Flusher.jobs f').drop c.backend.failures).map Prod.fst := fun hx =>
    (List.nodup_append.mp hnodup).2.2 _ hfailed _ hx rfl
  obtain ⟨hentry, hrecord⟩ := hcyc.unwritten p.1 hkept
  have hdirty := hb.dirty p.1 (((List.take_sublist _ _).map Prod.fst).subset hfailed)
  obtain ⟨st, answered, hfl⟩ := hcyc.flusher
  have hwaits := Flusher.mem_attempts_requeued (List.nodup_append.mp hnodup).1 hp hleft
  refine ⟨hentry, hrecord, hdirty, ⟨_, hfl, hwaits⟩, fun hF => ?_⟩
  -- the next flush finds the job in the retry lane and, with no failure left, writes it
  refine (hnext.flush_writes m hs₀ hi hready hencode hfl hF).2.2 p.1 (List.mem_append_right _ ?_)
  obtain ⟨y, hy, hyp⟩ := List.mem_map.mp hwaits
  have hkey := KeyedQueue.mem_keys_of_mem_toList hy
  rw [congrArg Prod.fst hyp] at hkey
  exact hkey


/-- **Write-behind coalescing.** Let node `i` of a coherent cluster, the only writer of its
kind, start ready to write behind, and let every object encode. Along every session of changes
of objects, recorded changes of cached objects, flushes and injected failures:
* between two flushes each identity is queued once, however often its changes were recorded;
* a flush with no failure injected saves once each identity changed since the last flush and
  each one waiting for retry, all distinct: each entry is left clean on the stored lineage with
  the node's tag on top, and the store holds the encoding of its object;
* a save that fails on an injected failure leaves its entry dirty and its record as they were
  and, while it has attempts left, waits for retry one attempt further; the next flush, with no
  failure left, writes it. -/
theorem write_behind_coalescing (hs₀ : Good n c₀ ∧ Coherent n i K N M c₀) (hi : i < n)
    (hready : Ready i c₀) (hencode : ∀ o, ∃ rec, m.encode o = .ok rec) :
    (∀ c ids, Session m i c₀ c ids →
      ∃ f, (c.node i).flusher = some f ∧ f.pending.keys = ids.eraseDups) ∧
    (∀ c ids f, Session m i c₀ c ids → (c.node i).flusher = some f →
      c.backend.failures = 0 →
      (ids.eraseDups ++ f.retry.keys).Nodup ∧
      ((flushAll m i).run.run c).2.backend.writes =
        c.backend.writes + ids.eraseDups.length + f.retry.size ∧
      ∀ x ∈ ids ++ f.retry.keys, Flushed m i N M c ((flushAll m i).run.run c).2 x) ∧
    (∀ c ids f, Session m i c₀ c ids → (c.node i).flusher = some f →
      ∀ p ∈ (Flusher.jobs f).take c.backend.failures,
        Flusher.retriesLeft f.options.retryLimit p.2 = true →
        (((flushAll m i).run.run c).2.node i).cache.entryOf p.1 = (c.node i).cache.entryOf p.1 ∧
        ((flushAll m i).run.run c).2.backend.get? p.1 = c.backend.get? p.1 ∧
        (∃ e, (c.node i).cache.entryOf p.1 = some e ∧ e.write = .dirty) ∧
        (∃ f', (((flushAll m i).run.run c).2.node i).flusher = some f' ∧
          (p.1, p.2 + 1) ∈ f'.retry.attempts) ∧
        (((flushAll m i).run.run c).2.backend.failures = 0 →
          Flushed m i N M ((flushAll m i).run.run c).2
            ((flushAll m i).run.run ((flushAll m i).run.run c).2).2 p.1)) := by
  refine ⟨fun c ids h => ?_, fun c ids f h hf hF => ?_, fun c ids f h hf p hp hleft => ?_⟩
  · obtain ⟨-, f, hb, hkeys⟩ := h.backlog m hs₀ hi hready hencode
    exact ⟨f, hb.flusher, hkeys⟩
  · exact h.flush_writes m hs₀ hi hready hencode hf hF
  · exact h.flush_failed m hs₀ hi hready hencode hf hp hleft

end Cycle

/-- The record of the account as node `a` created it. -/
def createdRecord : Record := Record.empty.stamp ledgerAccount createdByA ⟨0, 0⟩ none

/-- Node `a` of accounts writing behind, with the account cached clean on the lineage it
created and its flusher just started. -/
def behindNode : Repository :=
  { (default : Repository) with
    kind := "acct", node := "a", maxRun := 5,
    cache := { Cache.empty 4 none with
      entries := [(ledgerAccount, ⟨1, createdByA, .clean, false, 0, 1, 0⟩)] }
    flusher := some (Flusher.create {} 0) }

/-- Node `a` alone over the account it created. -/
def behindCluster : Cluster Nat :=
  ⟨⟨[(ledgerAccount, createdRecord)], 0, 0, []⟩, [behindNode], #[7], [], [], [], 0, 0⟩

/-- Node `a` after recording two changes of the account. -/
def recordedTwice : Cluster Nat :=
  ((update ledgerModel 0 1).run.run ((update ledgerModel 0 1).run.run behindCluster).2).2

/-- Node `a` records two changes of the account, then flushes: one save, which leaves the
account clean on a+1;a+2. -/
theorem behind_ledger_saved_once :
    (Good 1 behindCluster ∧ Coherent 1 0 "acct" "a" 5 behindCluster) ∧ Ready 0 behindCluster ∧
      ((flushAll ledgerModel 0).run.run recordedTwice).2.backend.writes = 1 ∧
      (((flushAll ledgerModel 0).run.run recordedTwice).2.node 0).cache.version? ledgerAccount =
        some updatedByA ∧
      (((flushAll ledgerModel 0).run.run recordedTwice).2.node 0).cache.writeState?
        ledgerAccount = some .clean := by
  have hcreated : createdByA.Stamped := Lineage.stamped_first ⟨by decide, by decide⟩ false 5
  have hversion : createdRecord.version = createdByA :=
    Record.version_stamp _ _ hcreated.valid _ _
  have hgood : Good 1 behindCluster := by
    refine ⟨rfl, ?_, fun j => ?_, fun j hj => ?_, fun j => ?_⟩
    · intro p hp
      obtain rfl : p = (ledgerAccount, createdRecord) := List.mem_singleton.mp hp
      rw [hversion]
      exact hcreated
    · cases j with
      | zero => exact ⟨List.nodup_singleton _, fun p hp => by
          obtain rfl := List.mem_singleton.mp hp
          exact hcreated⟩
      | succ j => exact ⟨List.nodup_nil, fun p hp => by cases hp⟩
    · obtain rfl : j = 0 := by omega
      exact ⟨by decide, by decide⟩
    · cases j with
      | zero => intro p hp; obtain rfl := List.mem_singleton.mp hp; decide
      | succ j => intro p hp; cases hp
  have hstored : ∀ id r, behindCluster.backend.get? id = some r →
      id = ledgerAccount ∧ r = createdRecord := by
    intro id r hr
    by_cases hid : id = ledgerAccount
    · subst hid
      exact ⟨rfl, (Option.some.inj hr).symm⟩
    · have hne : (id == ledgerAccount) = false := by simpa using hid
      simp [behindCluster, Backend.get?, List.lookup, hne] at hr
  have hcoherent : Coherent 1 0 "acct" "a" 5 behindCluster := by
    refine ⟨rfl, rfl, rfl, fun j hj hj0 => absurd (by omega) hj0, fun j => ?_, ?_, ?_⟩
    · cases j with
      | zero => intro p hp; obtain rfl := List.mem_singleton.mp hp; rfl
      | succ j => intro p hp; cases hp
    · intro p hp
      obtain rfl := List.mem_singleton.mp hp
      exact ⟨createdRecord, rfl, hversion⟩
    · intro id r _ hr
      obtain ⟨rfl, rfl⟩ := hstored id r hr
      exact ⟨1, Nat.one_pos, hversion.trans rfl⟩
  have hready : Ready 0 behindCluster := by
    refine ⟨⟨_, rfl, ⟨rfl, rfl, rfl, by decide, by decide, rfl, rfl, Nat.le_refl 0⟩, rfl, rfl⟩, ?_⟩
    -- the node caches the account alone
    have hone : ∀ x ex, (behindCluster.node 0).cache.entryOf x = some ex → x = ledgerAccount :=
      fun x ex hx => congrArg Prod.fst
        (List.mem_singleton.mp ((Cache.entryOf_eq_some_iff (hgood.caches 0).keyed).mp hx))
    intro x y ex ey hx hy _
    rw [hone x ex hx, hone y ey hy]
  refine ⟨⟨hgood, hcoherent⟩, hready, ?_⟩
  -- the two recorded changes form a session, after which the account is queued once
  have hsession : Session ledgerModel 0 behindCluster recordedTwice
      [ledgerAccount, ledgerAccount] :=
    Session.record 1 (Session.record 1 Session.start (by decide)) (by rfl)
  obtain ⟨f, hf⟩ : ∃ f, (recordedTwice.node 0).flusher = some f :=
    Option.isSome_iff_exists.mp (by rfl)
  have hsize : f.retry.size = 0 := by
    have hfl : ((recordedTwice.node 0).flusher.map fun f => f.retry.size) = some 0 := by rfl
    simpa [hf] using hfl
  have hsaved := (write_behind_coalescing ledgerModel ⟨hgood, hcoherent⟩ Nat.one_pos hready
    fun _ => ⟨_, rfl⟩).2.1 _ _ f hsession hf rfl
  obtain ⟨e, -, he, -, -, hent, -⟩ := hsaved.2.2 ledgerAccount (by simp)
  have hbase : e.version = createdByA := by
    have hv : (recordedTwice.node 0).cache.version? ledgerAccount = some createdByA := by rfl
    rw [Cache.version?, he] at hv
    exact Option.some.inj hv
  refine ⟨?_, ?_, ?_⟩
  · rw [hsaved.2.1, hsize]
    rfl
  · simp [Cache.version?, hent, hbase, updatedByA]
  · simp [Cache.writeState?, hent]

end Cluster

end Stowage
