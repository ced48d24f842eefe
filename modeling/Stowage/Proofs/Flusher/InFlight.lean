import Stowage.Proofs.Flusher.Shutdown
/-!
Marks of a running key are coalesced.

A flusher that ignores marks of running keys puts the keys of a batch in flight when a cycle
takes the pending lane, and settling a run takes its key out again; a mark of a key in flight is
counted as coalesced and queues nothing. Only the batch's keys go in flight: a task run from the
retry lane runs with its key out of flight, and a mark of that key made meanwhile is queued.

Under a retry limit of one, the options of background reloads, no failed task waits for retry,
so every run the worker starts before closing is asked for is a run of a batch. Then in every
world a flusher reaches, each such run found its task's key in flight and no task of the key
pending, and whatever calls the run makes keep it so: every mark of the key during the run is
coalesced, and the key has one task, the running one.

Here tasks know their keys (`keyOf`), and callers and tasks mark each task under its own key.
-/
namespace Stowage

open Relation

namespace Flusher

variable {κ τ : Type} [BEq κ] (keyOf : τ → κ)

/-- What a caller can do to a flusher whose tasks know their keys: mark a task under its own
key, cancel a key, ask for a flush, or ask the flusher to close. -/
inductive OwnCall : Flusher κ τ → Flusher κ τ → Prop
  | mark (f : Flusher κ τ) (t : τ) (now : Nat) : OwnCall f (f.enqueue (keyOf t) t now).1
  | cancel (f : Flusher κ τ) (k : κ) : OwnCall f (f.cancel k).1
  | request (f : Flusher κ τ) : OwnCall f f.request
  | shutdown (f : Flusher κ τ) : OwnCall f { f with shutdown := true }

variable {keyOf} {f g : Flusher κ τ}

theorem OwnCall.call (hc : OwnCall keyOf f g) : Call (fun _ => 0) f g := by
  cases hc with
  | mark t now => exact .mark _ _ _ _ rfl
  | cancel k => exact .cancel _ _
  | request => exact .request _
  | shutdown => exact .shutdown _

theorem enqueue_inFlight (f : Flusher κ τ) (k : κ) (t : τ) (now : Nat) :
    (f.enqueue k t now).1.inFlight = f.inFlight := by
  unfold enqueue
  split
  · rfl
  · split
    · rfl
    · dsimp only
      split <;> rfl

variable [LawfulBEq κ]

theorem OwnCall.frame (hc : OwnCall keyOf f g) :
    g.inFlight = f.inFlight ∧ g.closed = f.closed ∧ g.worker = f.worker ∧ g.options = f.options ∧
      (f.shutdown = true → g.shutdown = true) ∧ g.retry.keys.Sublist f.retry.keys := by
  obtain ⟨hcl, hw, ho, -⟩ := hc.call.frame
  refine ⟨?_, hcl, hw, ho, hc.call.shutdown_of, hc.call.retry_sublist⟩
  cases hc with
  | mark t now => exact enqueue_inFlight f _ t now
  | cancel k => rfl
  | request => rfl
  | shutdown => rfl

theorem OwnCall.frame_calls (hc : ReflTransGen (OwnCall keyOf) f g) :
    g.inFlight = f.inFlight ∧ g.closed = f.closed ∧ g.worker = f.worker ∧ g.options = f.options ∧
      (f.shutdown = true → g.shutdown = true) ∧ g.retry.keys.Sublist f.retry.keys := by
  induction hc with
  | refl => exact ⟨rfl, rfl, rfl, rfl, id, List.Sublist.refl _⟩
  | tail _ step ih =>
    obtain ⟨hi, hcl, hw, ho, hs, hr⟩ := step.frame
    exact ⟨hi.trans ih.1, hcl.trans ih.2.1, hw.trans ih.2.2.1, ho.trans ih.2.2.2.1,
      fun h => hs (ih.2.2.2.2.1 h), hr.trans ih.2.2.2.2.2⟩

theorem enqueue_pending (hd : f.options.dedupInFlight = true) (k : κ) (t : τ) (now : Nat) :
    (f.enqueue k t now).1.pending = f.pending ∨
      k ∉ f.inFlight ∧ (f.enqueue k t now).1.pending = (f.pending.push k t now).1 := by
  unfold enqueue
  split
  · exact .inl rfl
  · split
    · exact .inl rfl
    · rename_i hflight
      rw [hd, Bool.true_and, List.contains_iff_mem] at hflight
      dsimp only
      split <;> exact .inr ⟨hflight, rfl⟩

theorem enqueue_of_inFlight (hopen : f.closed = false) (hd : f.options.dedupInFlight = true)
    {k : κ} (hk : k ∈ f.inFlight) (t : τ) (now : Nat) :
    f.enqueue k t now = (f.count fun s => { s with coalesced := s.coalesced + 1 }, .queued) := by
  have hflight : (f.options.dedupInFlight && f.inFlight.contains k) = true := by
    rw [hd, Bool.true_and, List.contains_iff_mem]
    exact hk
  unfold enqueue
  rw [hopen, if_neg Bool.false_ne_true, if_pos hflight]

theorem OwnCall.pending (hd : f.options.dedupInFlight = true) (hc : OwnCall keyOf f g) :
    (f.pending.Tied (fun k t => keyOf t = k) → g.pending.Tied fun k t => keyOf t = k) ∧
      (f.pending.keys.Nodup → g.pending.keys.Nodup) ∧
      ∀ k ∈ g.pending.keys, k ∈ f.pending.keys ∨ k ∉ f.inFlight := by
  cases hc with
  | mark t now =>
    rcases enqueue_pending hd (keyOf t) t now with hp | ⟨hout, hp⟩ <;> rw [hp]
    · exact ⟨id, id, fun k hk => .inl hk⟩
    · refine ⟨fun ho => ho.push rfl now, fun hn => KeyedQueue.nodup_keys_push hn _ t now, ?_⟩
      intro k hk
      rw [KeyedQueue.keys_push] at hk
      split at hk
      · exact .inl hk
      · rcases List.mem_append.mp hk with hk | hk
        · exact .inl hk
        · exact .inr (List.mem_singleton.mp hk ▸ hout)
  | cancel k =>
    have hkeys := KeyedQueue.keys_remove f.pending k
    refine ⟨fun ho => ho.remove k, fun hn => ?_, fun x hx => .inl ?_⟩
    · exact hkeys ▸ hn.filter _
    · rw [show (f.cancel k).1.pending.keys = (f.pending.remove k).1.keys from rfl, hkeys] at hx
      exact (List.mem_filter.mp hx).1
  | request => exact ⟨id, id, fun k hk => .inl hk⟩
  | shutdown => exact ⟨id, id, fun k hk => .inl hk⟩

/-- The key `k` of a running task is alone: the flusher is open and ignores marks of running
keys, `k` is in flight, no task of `k` is pending, and no key is pending twice. -/
structure Sole (k : κ) (f : Flusher κ τ) : Prop where
  unclosed : f.closed = false
  dedup : f.options.dedupInFlight = true
  inFlight : k ∈ f.inFlight
  apart : k ∉ f.pending.keys
  nodup : f.pending.keys.Nodup

theorem Sole.call {k : κ} (hs : f.Sole k) (hc : OwnCall keyOf f g) : g.Sole k := by
  obtain ⟨hi, hcl, -, ho, -⟩ := hc.frame
  obtain ⟨-, hn, hkeys⟩ := hc.pending hs.dedup
  refine ⟨hcl.trans hs.unclosed, ho ▸ hs.dedup, hi ▸ hs.inFlight, fun hk => ?_, hn hs.nodup⟩
  rcases hkeys k hk with hk | hk
  · exact hs.apart hk
  · exact hk hs.inFlight

theorem Sole.calls {k : κ} (hs : f.Sole k) (hc : ReflTransGen (OwnCall keyOf) f g) : g.Sole k := by
  induction hc with
  | refl => exact hs
  | tail _ step ih => exact ih.call step

theorem Sole.coalesced {k : κ} (hs : f.Sole k) (t : τ) (now : Nat) :
    f.enqueue k t now = (f.count fun s => { s with coalesced := s.coalesced + 1 }, .queued) :=
  enqueue_of_inFlight hs.unclosed hs.dedup hs.inFlight t now

variable (keyOf) (o : FlusherOptions)

/-- A flusher under options `o` whose worker has the tasks `rest` of a batch still to run: its
pending tasks are queued under their own keys, no key is pending twice, the retry lane is empty,
it is closed only once closing was asked for, and, while its worker runs and closing was not
asked for, the keys in flight are those of `rest`, none of them pending. -/
structure Flying (rest : List (κ × τ)) (f : Flusher κ τ) : Prop where
  options : f.options = o
  owned : f.pending.Tied fun k t => keyOf t = k
  nodup : f.pending.keys.Nodup
  noRetry : f.retry.keys = []
  closed_shutdown : f.closed = true → f.shutdown = true
  aloft : f.worker = .running → f.shutdown = false →
    f.inFlight = rest.map (·.1) ∧ ∀ x ∈ rest, x.1 ∉ f.pending.keys

variable {keyOf o} {rest : List (κ × τ)}

theorem Flying.call (hf : f.Flying keyOf o rest) (hd : o.dedupInFlight = true)
    (hc : OwnCall keyOf f g) : g.Flying keyOf o rest := by
  obtain ⟨hi, hcl, hw, ho, hs, hr⟩ := hc.frame
  obtain ⟨howned, hn, hkeys⟩ := hc.pending (hf.options ▸ hd)
  refine ⟨ho.trans hf.options, howned hf.owned, hn hf.nodup, List.sublist_nil.mp (hf.noRetry ▸ hr),
    fun hc' => hs (hf.closed_shutdown (hcl ▸ hc')), fun hrun hopen => ?_⟩
  -- the worker and the close request are as they were before the call
  have hopen' : f.shutdown = false := by
    cases hfs : f.shutdown
    · rfl
    · rw [hs hfs] at hopen
      cases hopen
  obtain ⟨hflight, hapart⟩ := hf.aloft (hw ▸ hrun) hopen'
  refine ⟨hi.trans hflight, fun x hx hxp => ?_⟩
  rcases hkeys x.1 hxp with hxp | hxp
  · exact hapart x hx hxp
  · exact hxp (hflight ▸ List.mem_map_of_mem hx)

theorem Flying.calls (hf : f.Flying keyOf o rest) (hd : o.dedupInFlight = true)
    (hc : ReflTransGen (OwnCall keyOf) f g) : g.Flying keyOf o rest := by
  induction hc with
  | refl => exact hf
  | tail _ step ih => exact ih.call hd step

omit [BEq κ] [LawfulBEq κ] in
theorem Flying.rebatch (hf : f.Flying keyOf o rest) (rest' : List (κ × τ))
    (hnot : f.worker = .running → f.shutdown = false → False) : f.Flying keyOf o rest' :=
  ⟨hf.options, hf.owned, hf.nodup, hf.noRetry, hf.closed_shutdown,
    fun hw hs => (hnot hw hs).elim⟩

omit [BEq κ] [LawfulBEq κ] in
theorem Flying.stop (hf : f.Flying keyOf o rest) {w : WorkerState} (hw : w ≠ .running)
    (rest' : List (κ × τ)) : { f with worker := w }.Flying keyOf o rest' :=
  ⟨hf.options, hf.owned, hf.nodup, hf.noRetry, hf.closed_shutdown, fun hrun _ => (hw hrun).elim⟩

omit [BEq κ] [LawfulBEq κ] in
theorem Flying.count (hf : f.Flying keyOf o rest) (c : FlusherStats → FlusherStats) :
    (f.count c).Flying keyOf o rest :=
  ⟨hf.options, hf.owned, hf.nodup, hf.noRetry, hf.closed_shutdown, hf.aloft⟩

omit [BEq κ] [LawfulBEq κ] in
theorem Flying.takePending (hf : f.Flying keyOf o rest) (hs : f.shutdown = true)
    (rest' : List (κ × τ)) : { f with pending := KeyedQueue.empty }.Flying keyOf o rest' :=
  ⟨hf.options, KeyedQueue.tied_empty _, List.nodup_nil, hf.noRetry, hf.closed_shutdown,
    fun _ hopen => (Bool.false_ne_true (hopen.symm.trans hs)).elim⟩

omit [BEq κ] [LawfulBEq κ] in
theorem Flying.endDrain (hf : f.Flying keyOf o rest) (hs : f.shutdown = true)
    (rest' : List (κ × τ)) :
    { f with pending := KeyedQueue.empty, closed := true,
             completed := f.requested }.Flying keyOf o rest' :=
  ⟨hf.options, KeyedQueue.tied_empty _, List.nodup_nil, hf.noRetry, fun _ => hs,
    fun _ hopen => (Bool.false_ne_true (hopen.symm.trans hs)).elim⟩

omit [BEq κ] [LawfulBEq κ] in
theorem Flying.sole {k : κ} {t : τ} (hf : f.Flying keyOf o ((k, t) :: rest))
    (hd : o.dedupInFlight = true) (hw : f.worker = .running) (hs : f.shutdown = false) :
    f.Sole k := by
  obtain ⟨hflight, hapart⟩ := hf.aloft hw hs
  have hopen : f.closed = false := by
    cases hcl : f.closed
    · rfl
    · rw [hf.closed_shutdown hcl] at hs
      cases hs
  refine ⟨hopen, hf.options ▸ hd, ?_, hapart (k, t) List.mem_cons_self, hf.nodup⟩
  rw [hflight, List.map_cons]
  exact List.mem_cons_self

omit [LawfulBEq κ] in
theorem settle_frame (f : Flusher κ τ) (k : κ) (t : τ) (attempts : Nat) (r : Outcome Unit) :
    (f.settle k t attempts r).inFlight = f.inFlight.erase k ∧
      (f.settle k t attempts r).closed = f.closed ∧ (f.settle k t attempts r).worker = f.worker := by
  unfold settle
  cases r with
  | ok => exact ⟨rfl, rfl, rfl⟩
  | error e =>
    dsimp only
    split
    · exact ⟨rfl, rfl, rfl⟩
    · split <;> exact ⟨rfl, rfl, rfl⟩

theorem Flying.settle (hf : f.Flying keyOf o rest) (once : o.retryLimit = 1) {k : κ}
    {rest' : List (κ × τ)} (hk : (rest.map (·.1)).erase k = rest'.map (·.1))
    (hsub : ∀ x ∈ rest', x ∈ rest) (t : τ) (attempts : Nat) (r : Outcome Unit) :
    (f.settle k t attempts r).Flying keyOf o rest' := by
  obtain ⟨hp, hl, hr⟩ := settle_lanes f k t attempts r
  obtain ⟨hi, hcl, hw⟩ := settle_frame f k t attempts r
  have hs := settle_shutdown f k t attempts r
  -- a failed attempt would have to stay under the limit of one to be retried
  have hretry : (f.settle k t attempts r).retry = f.retry := by
    rcases hr with hr | ⟨-, hlim, -⟩
    · exact hr
    · rw [hf.options, once] at hlim
      omega
  refine ⟨hl.trans hf.options, hp ▸ hf.owned, hp ▸ hf.nodup, hretry ▸ hf.noRetry,
    fun hc => hs ▸ hf.closed_shutdown (hcl ▸ hc), fun hrun hopen => ?_⟩
  obtain ⟨hflight, hapart⟩ := hf.aloft (hw ▸ hrun) (hs ▸ hopen)
  exact ⟨by rw [hi, hflight, hk], fun x hx => hp ▸ hapart x (hsub x hx)⟩

theorem Flying.startCycle (hf : f.Flying keyOf o []) (hd : o.dedupInFlight = true) (now : Nat) :
    (f.startCycle now).1.Flying keyOf o (f.startCycle now).2.1 ∧
      (f.startCycle now).1.worker = f.worker ∧ (f.startCycle now).1.shutdown = f.shutdown ∧
      (f.startCycle now).2.2 = [] ∧ ∀ x ∈ (f.startCycle now).2.1, keyOf x.2 = x.1 := by
  have hbatch : ∀ x ∈ f.pending.toList, keyOf x.2 = x.1 := KeyedQueue.Tied.toList hf.owned
  have hflight : f.worker = .running → f.shutdown = false →
      (if f.options.dedupInFlight then f.inFlight ++ f.pending.toList.map (·.1) else f.inFlight) =
        f.pending.toList.map (·.1) := by
    intro hw hs
    rw [hf.options, hd, if_pos rfl, (hf.aloft hw hs).1, List.map_nil, List.nil_append]
  unfold Flusher.startCycle
  dsimp only
  split
  · exact ⟨⟨hf.options, KeyedQueue.tied_empty _, List.nodup_nil, rfl, hf.closed_shutdown,
      fun hw hs => ⟨hflight hw hs, fun _ _ hx => absurd hx List.not_mem_nil⟩⟩, rfl, rfl,
      KeyedQueue.toList_of_keys_nil hf.noRetry, hbatch⟩
  · exact ⟨⟨hf.options, KeyedQueue.tied_empty _, List.nodup_nil, hf.noRetry, hf.closed_shutdown,
      fun hw hs => ⟨hflight hw hs, fun _ _ hx => absurd hx List.not_mem_nil⟩⟩, rfl, rfl, rfl,
      hbatch⟩

end Flusher

namespace FlushHost

variable {σ κ τ : Type} [BEq κ] (h : FlushHost σ κ τ) (keyOf : τ → κ)

/-- A host whose tasks are marked under their own keys: a flusher put back is read back as it
was put, and while a task runs the flusher changes only by own calls. -/
structure OwnKeys : Prop where
  flusher_update : ∀ s f, h.flusher (h.update s f) = f
  calls_run : ∀ s t,
    ReflTransGen (Flusher.OwnCall keyOf) (h.flusher s) (h.flusher (h.run s t).1)

/-- The worlds a host reaches from `s₀` when every task is marked under its own key: by
callers' calls, by marks that a closed flusher leaves to their callers to run, and by the
worker's turns, flush requests, closes and sleeps. -/
inductive OwnReachable (s₀ : σ) : σ → Prop
  | start : OwnReachable s₀ s₀
  | call {s : σ} {f : Flusher κ τ} :
    OwnReachable s₀ s → Flusher.OwnCall keyOf (h.flusher s) f → OwnReachable s₀ (h.update s f)
  | runNow {s : σ} {t : τ} :
    OwnReachable s₀ s → (h.flusher s).closed = true → OwnReachable s₀ (h.run s t).1
  | work {s : σ} (now fuel : Nat) : OwnReachable s₀ s → OwnReachable s₀ (h.work s now fuel)
  | flushNow {s : σ} (now : Nat) : OwnReachable s₀ s → OwnReachable s₀ (h.flushNow s now)
  | close {s : σ} (now : Nat) : OwnReachable s₀ s → OwnReachable s₀ (h.close s now)
  | sleep {s : σ} (now ms : Nat) : OwnReachable s₀ s → OwnReachable s₀ (h.sleep s now ms)

variable (o : FlusherOptions)

/-- A journaled world whose worker has the tasks `rest` of a batch still to run: its flusher
flies `rest`, closing was asked for when `closing` says so, and every run in the journal that
started before closing was asked for found its task's key alone. -/
structure Aloft (closing : Bool) (rest : List (κ × τ)) (p : σ × List (Entry κ τ)) : Prop where
  flying : (h.flusher p.1).Flying keyOf o rest
  closing : closing = true → (h.flusher p.1).shutdown = true
  log : ∀ e ∈ p.2, e.before.shutdown = false → e.before.Sole (keyOf e.task)

variable {h keyOf}

theorem OwnKeys.journaled (hh : h.OwnKeys keyOf) : h.journaled.OwnKeys keyOf where
  flusher_update p f := hh.flusher_update p.1 f
  calls_run p t := hh.calls_run p.1 t

theorem drainRetries_of_nil {g : FlushHost σ κ τ} {s : σ} (hr : (g.flusher s).retry.keys = [])
    (rounds : Nat) : g.drainRetries s rounds = (s, true) := by
  have hempty : (g.flusher s).retry.isEmpty = true := KeyedQueue.isEmpty_iff.mpr hr
  cases rounds with
  | zero => rfl
  | succ rounds =>
    unfold drainRetries
    rw [if_pos hempty]

variable [LawfulBEq κ] {o} (hh : h.OwnKeys keyOf) (hd : o.dedupInFlight = true) (once : o.retryLimit = 1)
variable {c : Bool} {rest : List (κ × τ)}

section Steps

include hh

omit [LawfulBEq κ] in
theorem Aloft.update {p : σ × List (Entry κ τ)} (ha : h.Aloft keyOf o c rest p)
    {f : Flusher κ τ} {rest' : List (κ × τ)} (hf : f.Flying keyOf o rest')
    (hc : c = true → f.shutdown = true) : h.Aloft keyOf o c rest' (h.journaled.update p f) := by
  have hfu : h.flusher (h.journaled.update p f).1 = f := hh.flusher_update p.1 f
  refine ⟨?_, ?_, ha.log⟩ <;> rw [hfu]
  · exact hf
  · exact hc

omit [BEq κ] [LawfulBEq κ] hh in
theorem Aloft.idle {p : σ × List (Entry κ τ)} (ha : h.Aloft keyOf o c rest p)
    (hnot : (h.flusher p.1).worker = .running → (h.flusher p.1).shutdown = false → False)
    (rest' : List (κ × τ)) : h.Aloft keyOf o c rest' p :=
  ⟨ha.flying.rebatch rest' hnot, ha.closing, ha.log⟩

include hd

theorem Aloft.run {p : σ × List (Entry κ τ)} (ha : h.Aloft keyOf o c rest p) {t : τ}
    (hsole : (h.flusher p.1).shutdown = false → (h.flusher p.1).Sole (keyOf t)) :
    h.Aloft keyOf o c rest (h.journaled.run p t).1 := by
  have hcalls := hh.calls_run p.1 t
  refine ⟨ha.flying.calls hd hcalls, fun hc => (Flusher.OwnCall.frame_calls hcalls).2.2.2.2.1
    (ha.closing hc), ?_⟩
  intro e he
  rcases List.mem_cons.mp he with rfl | he
  · exact hsole
  · exact ha.log e he

include once

theorem Aloft.execute {p : σ × List (Entry κ τ)} (ha : h.Aloft keyOf o c rest p) {k : κ} {t : τ}
    (attempts : Nat) (rest' : List (κ × τ)) (hk : (rest.map (·.1)).erase k = rest'.map (·.1))
    (hsub : ∀ x ∈ rest', x ∈ rest)
    (hsole : (h.flusher p.1).shutdown = false → (h.flusher p.1).Sole (keyOf t)) :
    h.Aloft keyOf o c rest' (h.journaled.execute p k t attempts).1 := by
  have hrun := ha.run hh hd hsole
  unfold FlushHost.execute
  rcases hr : h.journaled.run p t with ⟨p', t', _ | _⟩ <;> rw [hr] at hrun <;> dsimp only
  · exact hrun.update hh (hrun.flying.settle once hk hsub t' attempts _)
      fun hc => (Flusher.settle_shutdown _ k t' attempts _).trans (hrun.closing hc)
  · exact hrun.update hh (hrun.flying.stop (by decide) rest') hrun.closing

omit hd once in
theorem worker_execute {p p' : σ × List (Entry κ τ)} {k : κ} {t : τ} {attempts : Nat}
    (he : h.journaled.execute p k t attempts = (p', true)) :
    (h.flusher p'.1).worker = (h.flusher p.1).worker := by
  obtain ⟨t', r, hf⟩ := flusher_execute p hh.flusher_update he
  rw [hf, (Flusher.settle_frame _ k t' attempts r).2.2]
  exact (Flusher.OwnCall.frame_calls (hh.calls_run p.1 t)).2.2.1

theorem Aloft.runBatch (batch : List (κ × τ)) (hb : ∀ x ∈ batch, keyOf x.2 = x.1)
    {p : σ × List (Entry κ τ)} (ha : h.Aloft keyOf o c batch p)
    (hw : c = true ∨ (h.flusher p.1).worker = .running) :
    h.Aloft keyOf o c [] (h.journaled.runBatch p batch).1 := by
  induction batch generalizing p with
  | nil => exact ha
  | cons task rest ih =>
    obtain ⟨k, t⟩ := task
    have hsole : (h.flusher p.1).shutdown = false → (h.flusher p.1).Sole (keyOf t) := by
      intro hs
      have hrun : (h.flusher p.1).worker = .running := by
        refine hw.resolve_left fun hc => ?_
        rw [ha.closing hc] at hs
        cases hs
      rw [hb (k, t) List.mem_cons_self]
      exact ha.flying.sole hd hrun hs
    have hexec := ha.execute hh hd once (k := k) 0 rest (by simp)
      (fun x hx => List.mem_cons_of_mem _ hx) hsole
    unfold FlushHost.runBatch
    rcases he : h.journaled.execute p k t 0 with ⟨p', _ | _⟩ <;> rw [he] at hexec <;> dsimp only
    · -- a panic takes the worker down, and the rest of the batch never runs
      have hdead := execute_dead (journaled_flusher_update hh.flusher_update) he
      exact hexec.idle (fun hrun _ => absurd (hdead.symm.trans hrun) (by decide)) []
    · exact ih (fun x hx => hb x (List.mem_cons_of_mem _ hx)) hexec
        (hw.imp_right fun hrun => (worker_execute hh he).trans hrun)

theorem Aloft.cycle {p : σ × List (Entry κ τ)} (ha : h.Aloft keyOf o c [] p)
    (hw : (h.flusher p.1).worker = .running) (now : Nat) :
    h.Aloft keyOf o c [] (h.journaled.cycle p now).1 := by
  obtain ⟨hf, hfw, hfs, hretries, hbatch⟩ := ha.flying.startCycle hd now
  unfold FlushHost.cycle
  rcases hc : (h.journaled.flusher p).startCycle now with ⟨f, batch, retries⟩
  have hc' : (h.flusher p.1).startCycle now = (f, batch, retries) := hc
  rw [hc'] at hf hfw hfs hretries hbatch
  dsimp only at hf hfw hfs hretries hbatch ⊢
  have hstart := ha.update hh hf fun hcl => hfs.trans (ha.closing hcl)
  have hrun := hstart.runBatch hh hd once batch hbatch
    (.inr ((hh.flusher_update p.1 f).symm ▸ hfw.trans hw))
  rcases hb : h.journaled.runBatch (h.journaled.update p f) batch with ⟨p', _ | _⟩ <;>
    rw [hb] at hrun <;> dsimp only
  · exact hrun
  · rw [hretries]
    show h.Aloft keyOf o c [] (h.journaled.modify p' fun f => { f with completed := f.started })
    exact hrun.update hh ⟨hrun.flying.options, hrun.flying.owned, hrun.flying.nodup,
      hrun.flying.noRetry, hrun.flying.closed_shutdown, hrun.flying.aloft⟩ hrun.closing

theorem Aloft.drainPending (fuel : Nat) {p : σ × List (Entry κ τ)}
    (ha : h.Aloft keyOf o true [] p) : h.Aloft keyOf o true [] (h.journaled.drainPending p fuel).1 := by
  induction fuel generalizing p with
  | zero => exact ha
  | succ fuel ih =>
    unfold FlushHost.drainPending
    dsimp only
    split
    · exact ha
    · -- closing was asked for, so the batch need not be in flight
      have htake := ha.flying.takePending (ha.closing rfl) (h.flusher p.1).pending.toList
      have hbatch : h.Aloft keyOf o true [] (h.journaled.runBatch (h.journaled.update p
          { h.journaled.flusher p with pending := KeyedQueue.empty })
          (h.journaled.flusher p).pending.toList).1 :=
        (ha.update hh htake ha.closing).runBatch hh hd once _
          (KeyedQueue.Tied.toList ha.flying.owned) (.inl rfl)
      rcases hb : h.journaled.runBatch (h.journaled.update p { h.journaled.flusher p with
        pending := KeyedQueue.empty }) (h.journaled.flusher p).pending.toList with ⟨p', _ | _⟩ <;>
        rw [hb] at hbatch
      · exact hbatch
      · exact ih hbatch

omit once in
theorem Aloft.runLate (late : List τ) {p : σ × List (Entry κ τ)}
    (ha : h.Aloft keyOf o true [] p) : h.Aloft keyOf o true [] (h.journaled.runLate p late).1 := by
  induction late generalizing p with
  | nil => exact ha
  | cons t rest ih =>
    have hrun := ha.run hh hd (t := t) fun hs => by rw [ha.closing rfl] at hs; cases hs
    unfold FlushHost.runLate
    rcases hr : h.journaled.run p t with ⟨p', t', _ | _⟩ <;> rw [hr] at hrun <;> dsimp only
    · exact ih hrun
    · exact hrun.update hh (hrun.flying.stop (by decide) []) hrun.closing

theorem Aloft.drain {p : σ × List (Entry κ τ)} (ha : h.Aloft keyOf o true [] p) (fuel : Nat) :
    h.Aloft keyOf o true [] (h.journaled.drain p fuel) := by
  unfold FlushHost.drain
  have hpending := ha.drainPending hh hd once fuel
  rcases hp : h.journaled.drainPending p fuel with ⟨p₁, _ | _⟩ <;> rw [hp] at hpending <;>
    dsimp only
  · exact hpending
  · dsimp only at hpending
    rw [drainRetries_of_nil (g := h.journaled) (s := p₁) hpending.flying.noRetry]
    dsimp only
    have hshut := hpending.closing rfl
    have hflying : (h.journaled.flusher p₁).Flying keyOf o [] := hpending.flying
    have hclosed := hpending.update hh (hflying.endDrain hshut []) fun _ => hshut
    have hlate := hclosed.runLate hh hd ((h.journaled.flusher p₁).pending.toList.map (·.2))
    split <;> rename_i heq <;> rw [heq] at hlate
    · exact hlate
    · exact hlate.update hh ((hlate.flying.count _).stop (by decide) []) hlate.closing

/-- The run lemma of the worker: a turn of work keeps a journaled world aloft. -/
theorem Aloft.work (now fuel : Nat) {p : σ × List (Entry κ τ)}
    (ha : h.Aloft keyOf o false [] p) : h.Aloft keyOf o false [] (h.journaled.work p now fuel) := by
  induction fuel generalizing p with
  | zero => exact ha
  | succ fuel ih =>
    unfold FlushHost.work
    dsimp only
    split
    · exact ha
    · rename_i hrun
      have hw : (h.journaled.flusher p).worker = .running := by simpa using hrun
      split
      · -- closing was asked for: the drain
        rename_i hs
        have hdrain := Aloft.drain hh hd once ⟨ha.flying, fun _ => hs, ha.log⟩ (fuel + 1)
        exact ⟨hdrain.flying, fun hc => absurd hc Bool.false_ne_true, hdrain.log⟩
      · split
        · have hcycle := ha.cycle hh hd once hw now
          rcases hc : h.journaled.cycle p now with ⟨p', _ | _⟩ <;> rw [hc] at hcycle <;>
            dsimp only
          · exact hcycle
          · exact ih hcycle
        · exact ha

theorem Aloft.flushNow {p : σ × List (Entry κ τ)} (ha : h.Aloft keyOf o false [] p) (now : Nat) :
    h.Aloft keyOf o false [] (h.journaled.flushNow p now) := by
  unfold FlushHost.flushNow
  split
  · exact ha
  · exact Aloft.work hh hd once now _ (ha.update hh (f := (h.flusher p.1).request)
      ⟨ha.flying.options, ha.flying.owned, ha.flying.nodup, ha.flying.noRetry,
        ha.flying.closed_shutdown, ha.flying.aloft⟩ ha.closing)

theorem Aloft.close {p : σ × List (Entry κ τ)} (ha : h.Aloft keyOf o false [] p) (now : Nat) :
    h.Aloft keyOf o false [] (h.journaled.close p now) := by
  unfold FlushHost.close
  split
  · exact ha
  · exact Aloft.work hh hd once now _ (ha.update hh (f := { h.flusher p.1 with shutdown := true })
      ⟨ha.flying.options, ha.flying.owned, ha.flying.nodup, ha.flying.noRetry, fun _ => rfl,
        fun _ hs => by cases hs⟩ fun hc => absurd hc Bool.false_ne_true)

theorem Aloft.sleep {p : σ × List (Entry κ τ)} (ha : h.Aloft keyOf o false [] p) (now ms : Nat) :
    h.Aloft keyOf o false [] (h.journaled.sleep p now ms) := by
  unfold FlushHost.sleep
  -- the timer walk wakes the worker at each deadline up to the end of the sleep
  suffices ∀ fuel t p, h.Aloft keyOf o false [] p →
      h.Aloft keyOf o false [] (sleep.go h.journaled now ms p t fuel) from this _ _ _ ha
  intro fuel
  induction fuel with
  | zero => intro t p ha; exact ha
  | succ fuel ih =>
    intro t p ha
    unfold sleep.go
    dsimp only
    split
    · exact ha
    · split
      · exact ha
      · have hwork := Aloft.work hh hd once (max (h.journaled.flusher p).deadline t) turnFuel ha
        split
        · exact ih _ _ hwork
        · exact ih _ _ hwork

/-- The run lemma: every journaled world reached from a new flusher under options `o`, with an
empty journal, is aloft with no batch left. -/
theorem OwnReachable.aloft {s₀ : σ} {now : Nat} (h₀ : h.flusher s₀ = Flusher.create o now)
    {p : σ × List (Entry κ τ)} (hp : h.journaled.OwnReachable keyOf (s₀, []) p) :
    h.Aloft keyOf o false [] p := by
  induction hp with
  | start =>
    refine ⟨?_, fun hc => absurd hc Bool.false_ne_true, fun _ he => absurd he List.not_mem_nil⟩
    show (h.flusher s₀).Flying keyOf o []
    rw [h₀]
    exact ⟨rfl, KeyedQueue.tied_empty _, List.nodup_nil, rfl, fun hc => absurd hc Bool.false_ne_true,
      fun _ _ => ⟨rfl, fun _ hx => absurd hx List.not_mem_nil⟩⟩
  | call _ hc ih => exact ih.update hh (ih.flying.call hd hc) fun hc => absurd hc Bool.false_ne_true
  | runNow _ hclosed ih =>
    exact ih.run hh hd fun hs => by rw [ih.flying.closed_shutdown hclosed] at hs; cases hs
  | work now fuel _ ih => exact ih.work hh hd once now fuel
  | flushNow now _ ih => exact ih.flushNow hh hd once now
  | close now _ ih => exact ih.close hh hd once now
  | sleep now ms _ ih => exact ih.sleep hh hd once now ms

end Steps

omit hh hd once in
/-- **Marks of a running key are coalesced.** Take a flusher that ignores marks of running keys,
under a retry limit of one, on a host whose tasks are marked under their own keys. In every
world it reaches, no key is pending twice; and every run in the journal that started before
closing was asked for found its task's key in flight with no task of the key pending, and,
whatever calls the run makes, the key stays in flight and not pending, and a mark of it is
counted as coalesced and queues nothing. -/
theorem running_key_sole (hh : h.OwnKeys keyOf) (hd : o.dedupInFlight = true)
    (once : o.retryLimit = 1) {s₀ : σ} {now : Nat} (h₀ : h.flusher s₀ = Flusher.create o now)
    {p : σ × List (Entry κ τ)} (hp : h.journaled.OwnReachable keyOf (s₀, []) p) :
    (h.flusher p.1).pending.keys.Nodup ∧
      ∀ e ∈ p.2, e.before.shutdown = false → ∀ g, ReflTransGen (Flusher.OwnCall keyOf) e.before g →
        keyOf e.task ∈ g.inFlight ∧ keyOf e.task ∉ g.pending.keys ∧ g.pending.keys.Nodup ∧
          ∀ t now, g.enqueue (keyOf e.task) t now =
            (g.count fun s => { s with coalesced := s.coalesced + 1 }, .queued) := by
  have ha := OwnReachable.aloft hh hd once h₀ hp
  refine ⟨ha.flying.nodup, fun e he hs g hg => ?_⟩
  have hsole := (ha.log e he hs).calls hg
  exact ⟨hsole.inFlight, hsole.apart, hsole.nodup, hsole.coalesced⟩

end FlushHost

namespace Console

open FlushHost

theorem benchHost_ownKeys : benchHost.OwnKeys fun t : ScriptedTask => t.script.key where
  flusher_update _ _ := rfl
  calls_run b t :=
    calls_runScript ⟨fun f sub now => .mark f ⟨sub, 0⟩ now, .shutdown⟩ b t.script t.runs

/-- Under the options of background reloads, a reload of `k` that marks another reload of `k`
while it runs, flushed once. -/
theorem running_key_sole_reload :
    let s₀ : FlushBench := ⟨Flusher.create FlusherOptions.reloads 0, [], 0, false⟩
    let r : ScriptedTask := ⟨.mk "k" "R" ["ok"] [(0, .mk "k" "B" [] [] false)] false, 0⟩
    let p := benchHost.journaled.flushNow (benchHost.journaled.update (s₀, [])
      ((Flusher.create FlusherOptions.reloads 0).enqueue "k" r 0).1) 0
    (benchHost.flusher p.1).pending.keys.Nodup ∧
      ∀ e ∈ p.2, e.before.shutdown = false →
        ∀ g, ReflTransGen (Flusher.OwnCall fun t : ScriptedTask => t.script.key) e.before g →
          e.task.script.key ∈ g.inFlight ∧ e.task.script.key ∉ g.pending.keys ∧
            g.pending.keys.Nodup ∧ ∀ t now, g.enqueue e.task.script.key t now =
              (g.count fun s => { s with coalesced := s.coalesced + 1 }, .queued) := by
  intro s₀ r p
  exact running_key_sole benchHost_ownKeys rfl rfl rfl (.flushNow 0 (.call .start (.mark _ r 0)))

/-- Under the default retry limit, a task that failed once runs again from the retry lane with
its key out of flight, so a mark of its key made during that run is queued: the key has a task
pending while one of its tasks runs. -/
theorem retried_key_queued_while_running :
    let o : FlusherOptions := { dedupInFlight := true }
    let s₀ : FlushBench := ⟨Flusher.create o 0, [], 0, false⟩
    let r : ScriptedTask := ⟨.mk "k" "R" ["backend", "ok"] [(1, .mk "k" "B" [] [] false)] false, 0⟩
    let p := benchHost.journaled.flushNow (benchHost.journaled.flushNow
      (benchHost.journaled.update (s₀, []) ((Flusher.create o 0).enqueue "k" r 0).1) 0) 0
    ∃ e ∈ p.2, e.before.shutdown = false ∧ e.task.script.key ∉ e.before.inFlight ∧
      e.task.script.key ∈ e.after.pending.keys := by
  decide +kernel

end Console

end Stowage
