import Stowage.Proofs.Flusher.InFlight
/-!
Cancelling a key is final for the tasks it reaches.

`cancel k` takes the task of `k` out of the pending lane and out of the retry lane. The worker
takes the tasks it runs only out of these lanes, and a failed run goes back to the retry lane
only as the task that ran. So once neither lane holds a task of `k` and the worker holds none,
every task of `k` that runs later was marked later: whatever all marks of `k` vouch for from then
on, all runs of `k` vouch for too (`cancel_final_between_turns`). The callers of a flusher cancel
between the worker's turns, when it holds no task.

A cancel made while a cycle runs, by a task or by another caller, does not reach the tasks the
cycle has already taken out of the lanes: a task of `k` later in the same batch still runs after
the cancel has returned (`cancel_misses_taken_task`).

The invariant is stated once for any rule `Q` on the tasks of the lanes under their keys: when
every mark keeps to `Q`, and every run gives its task back still keeping to it, the lanes keep to
`Q` in every world reached, and so does every task that runs.
-/
namespace Stowage

open Relation

namespace Flusher

variable {κ τ : Type} [BEq κ] (Q : κ → τ → Prop)

/-- What a caller can do when every task it marks is allowed by `Q` under its key: mark such a
task, cancel a key, ask for a flush, or ask the flusher to close. -/
inductive CallWithin : Flusher κ τ → Flusher κ τ → Prop
  | mark (f : Flusher κ τ) (k : κ) (t : τ) (now : Nat) : Q k t → CallWithin f (f.enqueue k t now).1
  | cancel (f : Flusher κ τ) (k : κ) : CallWithin f (f.cancel k).1
  | request (f : Flusher κ τ) : CallWithin f f.request
  | shutdown (f : Flusher κ τ) : CallWithin f { f with shutdown := true }

/-- Every task in the lanes is allowed by `Q` under the key it is queued under. -/
structure Vouched (f : Flusher κ τ) : Prop where
  pending : f.pending.Tied Q
  retry : f.retry.Tied fun k r => Q k r.task

variable {Q} {f g : Flusher κ τ}

omit [BEq κ] in
theorem vouched_create (o : FlusherOptions) (now : Nat) : (create o now : Flusher κ τ).Vouched Q :=
  ⟨KeyedQueue.tied_empty _, KeyedQueue.tied_empty _⟩

omit [BEq κ] in
theorem Vouched.frame (h : f.Vouched Q) (hp : g.pending = f.pending) (hr : g.retry = f.retry) :
    g.Vouched Q :=
  ⟨hp ▸ h.pending, hr ▸ h.retry⟩

omit [BEq κ] in
theorem Vouched.mono (h : f.Vouched Q) {Q' : κ → τ → Prop} (hQ : ∀ k t, Q k t → Q' k t) :
    f.Vouched Q' :=
  ⟨fun s hs => hQ _ _ (h.pending s hs), fun s hs => hQ _ _ (h.retry s hs)⟩

theorem Vouched.cancel (h : f.Vouched Q) (k : κ) : (f.cancel k).1.Vouched Q :=
  ⟨h.pending.remove k, h.retry.remove k⟩

theorem Vouched.cancel_ne [LawfulBEq κ] (h : f.Vouched Q) (k : κ) :
    (f.cancel k).1.Vouched fun k' t => Q k' t ∧ k' ≠ k := by
  refine ⟨fun s hs => ?_, fun s hs => ?_⟩
  · obtain ⟨hs, hne⟩ := KeyedQueue.mem_slots_remove hs
    exact ⟨h.pending s hs, hne⟩
  · obtain ⟨hs, hne⟩ := KeyedQueue.mem_slots_remove hs
    exact ⟨h.retry s hs, hne⟩

theorem Vouched.enqueue [LawfulBEq κ] (h : f.Vouched Q) {k : κ} {t : τ} (hq : Q k t) (now : Nat) :
    (f.enqueue k t now).1.Vouched Q := by
  obtain ⟨-, ⟨hp, hr⟩ | ⟨hp, hr⟩⟩ := enqueue_lanes f k t now
  · exact h.frame hp hr
  · exact ⟨hp ▸ h.pending.push hq now, hr ▸ h.retry.remove k⟩

theorem Vouched.call [LawfulBEq κ] (h : f.Vouched Q) (hc : CallWithin Q f g) : g.Vouched Q := by
  cases hc with
  | mark k t now hq => exact h.enqueue hq now
  | cancel k => exact h.cancel k
  | request => exact h.frame rfl rfl
  | shutdown => exact h.frame rfl rfl

theorem Vouched.calls [LawfulBEq κ] (h : f.Vouched Q) (hc : ReflTransGen (CallWithin Q) f g) :
    g.Vouched Q := by
  induction hc with
  | refl => exact h
  | tail _ step ih => exact ih.call step

theorem Vouched.settle [LawfulBEq κ] (h : f.Vouched Q) {k : κ} {t : τ} (hq : Q k t)
    (attempts : Nat) (r : Outcome Unit) : (f.settle k t attempts r).Vouched Q := by
  obtain ⟨hp, -, hr | ⟨-, -, hr⟩⟩ := settle_lanes f k t attempts r
  · exact h.frame hp hr
  · exact ⟨hp ▸ h.pending, hr ▸ h.retry.push hq 0⟩

theorem Vouched.startCycle [LawfulBEq κ] (h : f.Vouched Q) (now : Nat) :
    (f.startCycle now).1.Vouched Q ∧ (∀ x ∈ (f.startCycle now).2.1, Q x.1 x.2) ∧
      ∀ x ∈ (f.startCycle now).2.2, Q x.1 x.2.task := by
  unfold Flusher.startCycle
  dsimp only
  split
  · exact ⟨⟨KeyedQueue.tied_empty _, KeyedQueue.tied_empty _⟩, h.pending.toList, h.retry.toList⟩
  · exact ⟨⟨KeyedQueue.tied_empty _, h.retry⟩, h.pending.toList,
      fun _ hx => absurd hx List.not_mem_nil⟩

end Flusher

namespace FlushHost

variable {σ κ τ : Type} [BEq κ] (h : FlushHost σ κ τ)

/-- A host that keeps to `Q` in the worlds where `W` holds: a flusher put back is read back as it
was put, `W` lasts, and a run of an allowed task in such a world gives the task back still
allowed under the same key, while the flusher changes only by calls that mark allowed tasks. -/
structure Within (W : σ → Prop) (Q : κ → τ → Prop) : Prop where
  flusher_update : ∀ s f, h.flusher (h.update s f) = f
  update : ∀ s f, W s → W (h.update s f)
  run : ∀ s k t, W s → Q k t →
    W (h.run s t).1 ∧ Q k (h.run s t).2.1 ∧
      ReflTransGen (Flusher.CallWithin Q) (h.flusher s) (h.flusher (h.run s t).1)

/-- The worlds a host reaches from `s₀` when its callers mark only tasks that `Q` allows under
their keys: by their calls, by runs of such tasks that a closed flusher leaves to them, and by the
worker's turns, flush requests, closes and sleeps. -/
inductive ReachableWithin (Q : κ → τ → Prop) (s₀ : σ) : σ → Prop
  | start : ReachableWithin Q s₀ s₀
  | call {s : σ} {f : Flusher κ τ} :
    ReachableWithin Q s₀ s → Flusher.CallWithin Q (h.flusher s) f →
      ReachableWithin Q s₀ (h.update s f)
  | runNow {s : σ} {k : κ} {t : τ} :
    ReachableWithin Q s₀ s → (h.flusher s).closed = true → Q k t →
      ReachableWithin Q s₀ (h.run s t).1
  | work {s : σ} (now fuel : Nat) : ReachableWithin Q s₀ s → ReachableWithin Q s₀ (h.work s now fuel)
  | flushNow {s : σ} (now : Nat) : ReachableWithin Q s₀ s → ReachableWithin Q s₀ (h.flushNow s now)
  | close {s : σ} (now : Nat) : ReachableWithin Q s₀ s → ReachableWithin Q s₀ (h.close s now)
  | sleep {s : σ} (now ms : Nat) : ReachableWithin Q s₀ s → ReachableWithin Q s₀ (h.sleep s now ms)

/-- A world where `W` holds and whose lanes are vouched by `Q`. -/
structure Vouching (W : σ → Prop) (Q : κ → τ → Prop) (s : σ) : Prop where
  world : W s
  lanes : (h.flusher s).Vouched Q

variable {h} {W : σ → Prop} {Q : κ → τ → Prop}

theorem Within.journaled (hw : h.Within W Q) :
    h.journaled.Within (fun p => W p.1 ∧ ∀ e ∈ p.2, ∃ k, Q k e.task) Q where
  flusher_update p f := hw.flusher_update p.1 f
  update p f hp := ⟨hw.update p.1 f hp.1, hp.2⟩
  run p k t hp hq := by
    obtain ⟨hW, hback, hcalls⟩ := hw.run p.1 k t hp.1 hq
    refine ⟨⟨hW, fun e he => ?_⟩, hback, hcalls⟩
    rcases List.mem_cons.mp he with rfl | he
    · exact ⟨k, hq⟩
    · exact hp.2 e he

section Runs

variable (hw : h.Within W Q) {s : σ}
include hw

theorem Vouching.update (ha : h.Vouching W Q s) {f : Flusher κ τ} (hf : f.Vouched Q) :
    h.Vouching W Q (h.update s f) :=
  ⟨hw.update s f ha.world, by rw [hw.flusher_update]; exact hf⟩

theorem Vouching.modify (ha : h.Vouching W Q s) {g : Flusher κ τ → Flusher κ τ}
    (hf : (g (h.flusher s)).Vouched Q) : h.Vouching W Q (h.modify s g) :=
  ha.update hw hf

variable [LawfulBEq κ]

theorem Vouching.execute (ha : h.Vouching W Q s) {k : κ} {t : τ} (hq : Q k t) (attempts : Nat) :
    h.Vouching W Q (h.execute s k t attempts).1 := by
  obtain ⟨hW, hback, hcalls⟩ := hw.run s k t ha.world hq
  have hlanes := ha.lanes.calls hcalls
  unfold FlushHost.execute
  rcases hr : h.run s t with ⟨s', t', _ | _⟩ <;> rw [hr] at hW hback hlanes <;>
    dsimp only at hW hback hlanes ⊢
  · exact Vouching.modify hw ⟨hW, hlanes⟩ (hlanes.settle hback attempts _)
  · exact Vouching.modify hw ⟨hW, hlanes⟩ (hlanes.frame rfl rfl)

theorem Vouching.runBatch (batch : List (κ × τ)) (hb : ∀ x ∈ batch, Q x.1 x.2)
    (ha : h.Vouching W Q s) : h.Vouching W Q (h.runBatch s batch).1 := by
  induction batch generalizing s with
  | nil => exact ha
  | cons task rest ih =>
    obtain ⟨k, t⟩ := task
    have hexec := ha.execute hw (hb (k, t) List.mem_cons_self) 0
    unfold FlushHost.runBatch
    rcases he : h.execute s k t 0 with ⟨s', _ | _⟩ <;> rw [he] at hexec <;> dsimp only
    · exact hexec
    · exact ih (fun x hx => hb x (List.mem_cons_of_mem _ hx)) hexec

theorem Vouching.runRetries (retries : List (κ × Retry τ)) (hr : ∀ x ∈ retries, Q x.1 x.2.task)
    (ha : h.Vouching W Q s) : h.Vouching W Q (h.runRetries s retries).1 := by
  induction retries generalizing s with
  | nil => exact ha
  | cons task rest ih =>
    obtain ⟨k, r⟩ := task
    -- the retry is counted before it runs
    have hcount : h.Vouching W Q (h.modify s fun f =>
        f.count fun st => { st with retried := st.retried + 1 }) :=
      ha.modify hw (ha.lanes.frame rfl rfl)
    have hexec := hcount.execute hw (hr (k, r) List.mem_cons_self) r.attempts
    unfold FlushHost.runRetries
    dsimp only
    split <;> rename_i heq <;> rw [heq] at hexec <;> dsimp only at hexec
    · exact ih (fun x hx => hr x (List.mem_cons_of_mem _ hx)) hexec
    · exact hexec

theorem Vouching.cycle (ha : h.Vouching W Q s) (now : Nat) : h.Vouching W Q (h.cycle s now).1 := by
  obtain ⟨hf, hbatch, hretries⟩ := ha.lanes.startCycle now
  unfold FlushHost.cycle
  rcases hc : (h.flusher s).startCycle now with ⟨f, batch, retries⟩
  rw [hc] at hf hbatch hretries
  dsimp only at hf hbatch hretries ⊢
  have hrun := (ha.update hw hf).runBatch hw batch hbatch
  rcases hb : h.runBatch (h.update s f) batch with ⟨s', _ | _⟩ <;> rw [hb] at hrun <;> dsimp only
  · exact hrun
  · have hretry := hrun.runRetries hw retries hretries
    rcases hr : h.runRetries s' retries with ⟨s'', _ | _⟩ <;> rw [hr] at hretry <;> dsimp only
    · exact hretry
    · exact hretry.modify hw (hretry.lanes.frame rfl rfl)

theorem Vouching.drainPending (fuel : Nat) (ha : h.Vouching W Q s) :
    h.Vouching W Q (h.drainPending s fuel).1 := by
  induction fuel generalizing s with
  | zero => exact ha
  | succ fuel ih =>
    unfold FlushHost.drainPending
    dsimp only
    split
    · exact ha
    · -- a pass takes the whole pending lane
      have hpass := (ha.update hw (f := { h.flusher s with pending := KeyedQueue.empty })
        ⟨KeyedQueue.tied_empty _, ha.lanes.retry⟩).runBatch hw _ ha.lanes.pending.toList
      rcases hb : h.runBatch (h.update s { h.flusher s with pending := KeyedQueue.empty })
        (h.flusher s).pending.toList with ⟨s', _ | _⟩ <;> rw [hb] at hpass
      · exact hpass
      · exact ih hpass

theorem Vouching.drainRetries (rounds : Nat) (ha : h.Vouching W Q s) :
    h.Vouching W Q (h.drainRetries s rounds).1 := by
  induction rounds generalizing s with
  | zero => exact ha
  | succ rounds ih =>
    unfold FlushHost.drainRetries
    dsimp only
    split
    · exact ha
    · -- a round takes the whole retry lane
      have hround := (ha.update hw (f := { h.flusher s with retry := KeyedQueue.empty })
        ⟨ha.lanes.pending, KeyedQueue.tied_empty _⟩).runRetries hw _ ha.lanes.retry.toList
      rcases hr : h.runRetries (h.update s { h.flusher s with retry := KeyedQueue.empty })
        (h.flusher s).retry.toList with ⟨s', _ | _⟩ <;> rw [hr] at hround
      · exact hround
      · exact ih hround

theorem Vouching.runLate (late : List τ) (hl : ∀ t ∈ late, ∃ k, Q k t) (ha : h.Vouching W Q s) :
    h.Vouching W Q (h.runLate s late).1 := by
  induction late generalizing s with
  | nil => exact ha
  | cons t rest ih =>
    obtain ⟨k, hq⟩ := hl t List.mem_cons_self
    obtain ⟨hW, -, hcalls⟩ := hw.run s k t ha.world hq
    have hrun : h.Vouching W Q (h.run s t).1 := ⟨hW, ha.lanes.calls hcalls⟩
    unfold FlushHost.runLate
    rcases hr : h.run s t with ⟨s', t', _ | _⟩ <;> rw [hr] at hrun <;> dsimp only
    · exact ih (fun u hu => hl u (List.mem_cons_of_mem _ hu)) hrun
    · exact hrun.modify hw (hrun.lanes.frame rfl rfl)

theorem Vouching.drain (ha : h.Vouching W Q s) (fuel : Nat) : h.Vouching W Q (h.drain s fuel) := by
  unfold FlushHost.drain
  have hpending := ha.drainPending hw fuel
  rcases hp : h.drainPending s fuel with ⟨s₁, _ | _⟩ <;> rw [hp] at hpending <;> dsimp only
  · exact hpending
  · dsimp only at hpending
    have hretries := hpending.drainRetries hw (h.flusher s₁).options.drainAttempts
    rcases hr : h.drainRetries s₁ (h.flusher s₁).options.drainAttempts with ⟨s₂, _ | _⟩ <;>
      rw [hr] at hretries <;> dsimp only
    · exact hretries
    · dsimp only at hretries
      -- the tasks marked during the drain get their last run with the flusher closed
      have hclosed := hretries.update hw (f := { h.flusher s₂ with
        pending := KeyedQueue.empty, closed := true, completed := (h.flusher s₂).requested })
        ⟨KeyedQueue.tied_empty _, hretries.lanes.retry⟩
      have hlate := hclosed.runLate hw ((h.flusher s₂).pending.toList.map (·.2)) fun t ht => by
        obtain ⟨x, hx, rfl⟩ := List.mem_map.mp ht
        exact ⟨x.1, hretries.lanes.pending.toList x hx⟩
      split <;> rename_i heq <;> rw [heq] at hlate
      · exact hlate
      · exact hlate.modify hw (hlate.lanes.frame rfl rfl)

/-- The run lemma of the worker: a turn of work keeps the world vouching. -/
theorem Vouching.work (now fuel : Nat) (ha : h.Vouching W Q s) :
    h.Vouching W Q (h.work s now fuel) := by
  induction fuel generalizing s with
  | zero => exact ha
  | succ fuel ih =>
    unfold FlushHost.work
    dsimp only
    split
    · exact ha
    · split
      · exact ha.drain hw (fuel + 1)
      · split
        · have hcycle := ha.cycle hw now
          rcases hc : h.cycle s now with ⟨s', _ | _⟩ <;> rw [hc] at hcycle <;> dsimp only
          · exact hcycle
          · exact ih hcycle
        · exact ha

theorem Vouching.flushNow (ha : h.Vouching W Q s) (now : Nat) :
    h.Vouching W Q (h.flushNow s now) := by
  unfold FlushHost.flushNow
  split
  · exact ha
  · exact (ha.modify hw (ha.lanes.frame rfl rfl)).work hw now _

theorem Vouching.close (ha : h.Vouching W Q s) (now : Nat) : h.Vouching W Q (h.close s now) := by
  unfold FlushHost.close
  split
  · exact ha
  · exact (ha.modify hw (ha.lanes.frame rfl rfl)).work hw now _

theorem Vouching.sleep (ha : h.Vouching W Q s) (now ms : Nat) :
    h.Vouching W Q (h.sleep s now ms) := by
  unfold FlushHost.sleep
  -- the timer walk wakes the worker at each deadline up to the end of the sleep
  suffices ∀ fuel t s, h.Vouching W Q s → h.Vouching W Q (sleep.go h now ms s t fuel) from
    this _ _ _ ha
  intro fuel
  induction fuel with
  | zero => intro t s ha; exact ha
  | succ fuel ih =>
    intro t s ha
    unfold sleep.go
    dsimp only
    split
    · exact ha
    · split
      · exact ha
      · have hwork := ha.work hw (max (h.flusher s).deadline t) turnFuel
        split
        · exact ih _ _ hwork
        · exact ih _ _ hwork

/-- The run lemma: from a world that vouches, every world the host reaches vouches. -/
theorem ReachableWithin.vouching {s₀ : σ} (h₀ : h.Vouching W Q s₀)
    (hs : h.ReachableWithin Q s₀ s) : h.Vouching W Q s := by
  induction hs with
  | start => exact h₀
  | call _ hc ih => exact ih.update hw (ih.lanes.call hc)
  | runNow _ _ hq ih =>
    obtain ⟨hW, -, hcalls⟩ := hw.run _ _ _ ih.world hq
    exact ⟨hW, ih.lanes.calls hcalls⟩
  | work now fuel _ ih => exact ih.work hw now fuel
  | flushNow now _ ih => exact ih.flushNow hw now
  | close now _ ih => exact ih.close hw now
  | sleep now ms _ ih => exact ih.sleep hw now ms

end Runs

/-- **A cancel between the worker's turns is final.** Take a host whose tasks are marked under
their own keys and keep their keys when they run, reached from a new flusher, and cancel `k`
there, between the worker's turns. From then on, let every task of `k` that callers or running
tasks mark have the property `Late` while `W` holds, and let a task keep `Late` when it runs.
Then every task of `k` that runs from then on, by the worker or by a caller of the closed
flusher, has `Late`: a task of `k` marked before the cancel does not run again unless it is
marked anew. -/
theorem cancel_final_between_turns [LawfulBEq κ] (keyOf : τ → κ)
    (hown : h.Within (fun _ => True) fun k t => keyOf t = k) {o : FlusherOptions} {now : Nat}
    {s₀ s : σ} (h₀ : h.flusher s₀ = Flusher.create o now)
    (hs : h.ReachableWithin (fun k t => keyOf t = k) s₀ s) (k : κ) {Late : τ → Prop}
    (hlate : h.Within W fun k' t => keyOf t = k' ∧ (k' = k → Late t))
    (hW : W (h.update s ((h.flusher s).cancel k).1)) {p : σ × List (Entry κ τ)}
    (hp : h.journaled.ReachableWithin (fun k' t => keyOf t = k' ∧ (k' = k → Late t))
      (h.update s ((h.flusher s).cancel k).1, []) p) :
    ∀ e ∈ p.2, keyOf e.task = k → Late e.task := by
  -- before the cancel, every queued task is queued under its own key
  have hv : (h.flusher s).Vouched fun k t => keyOf t = k := by
    refine (ReachableWithin.vouching hown ⟨trivial, ?_⟩ hs).lanes
    rw [h₀]
    exact Flusher.vouched_create o now
  -- so the cancel leaves no task of `k` in the lanes
  have hv₁ : (h.flusher (h.update s ((h.flusher s).cancel k).1)).Vouched
      fun k' t => keyOf t = k' ∧ (k' = k → Late t) := by
    rw [hown.flusher_update]
    exact (hv.cancel_ne k).mono fun k' t ⟨hkt, hne⟩ => ⟨hkt, fun heq => absurd heq hne⟩
  have h₁ : h.journaled.Vouching
      (fun p => W p.1 ∧ ∀ e ∈ p.2, ∃ k', keyOf e.task = k' ∧ (k' = k → Late e.task))
      (fun k' t => keyOf t = k' ∧ (k' = k → Late t)) (h.update s ((h.flusher s).cancel k).1, []) :=
    ⟨⟨hW, fun _ he => absurd he List.not_mem_nil⟩, hv₁⟩
  have ha := ReachableWithin.vouching hlate.journaled h₁ hp
  intro e he hk
  obtain ⟨k', hkt, hfresh⟩ := ha.world.2 e he
  exact hfresh (hkt.symm.trans hk)

/-- Numbered tasks `(key, serial)` that need nothing but the flusher: while the task `(0, 0)`
runs, another caller cancels the key `1`, and the task then fails for want of resources; every
other task succeeds. -/
def cancelsWhileRunning : FlushHost (Flusher Nat (Nat × Nat)) Nat (Nat × Nat) where
  flusher f := f
  update _ f := f
  run f t :=
    if t = (0, 0) then ((f.cancel 1).1, t, .finished (.error (.resourceExhausted "memory")))
    else (f, t, .finished (.ok ()))

theorem cancelsWhileRunning_within (Q : Nat → Nat × Nat → Prop) :
    cancelsWhileRunning.Within (fun _ => True) Q where
  flusher_update _ _ := rfl
  update _ _ _ := trivial
  run f k t _ hq := by
    unfold cancelsWhileRunning
    dsimp only
    split
    · exact ⟨trivial, hq, .single (.cancel f 1)⟩
    · exact ⟨trivial, hq, .refl⟩

/-- The task `(0, 0)` fails and waits for retry; its key is cancelled between turns. A flush
then runs nothing of the key, and after a new task of the key is marked, a second flush runs only
that one. -/
theorem cancel_final_between_turns_retry_dropped :
    let s := cancelsWhileRunning.flushNow
      ((Flusher.create {} 0 : Flusher Nat (Nat × Nat)).enqueue 0 (0, 0) 0).1 0
    let s₁ := (s.cancel 0).1
    let q := cancelsWhileRunning.journaled.flushNow (s₁, []) 0
    let p := cancelsWhileRunning.journaled.flushNow
      (cancelsWhileRunning.journaled.update q (q.1.enqueue 0 (0, 1) 0).1) 0
    ∀ e ∈ p.2, e.task.1 = 0 → 0 < e.task.2 := by
  intro s s₁ q p
  have hs : cancelsWhileRunning.ReachableWithin (fun k t => t.1 = k) (Flusher.create {} 0) s :=
    .flushNow 0 (.call .start (.mark _ 0 (0, 0) 0 rfl))
  have hp : cancelsWhileRunning.journaled.ReachableWithin
      (fun k' t => t.1 = k' ∧ (k' = 0 → 0 < t.2)) (s₁, []) p :=
    .flushNow 0 (.call (.flushNow 0 .start) (.mark _ 0 (0, 1) 0 ⟨rfl, fun _ => Nat.one_pos⟩))
  exact cancel_final_between_turns Prod.fst (cancelsWhileRunning_within _) rfl hs 0
    (cancelsWhileRunning_within _) trivial hp

/-- **A cancel does not reach the tasks a cycle has taken.** Two tasks fill a pending lane of two,
so a cycle takes both, `(0, 0)` and then `(1, 0)`. While `(0, 0)` runs, the key `1` is cancelled:
the cancel finds no task of `1` in either lane and drops nothing, and the task `(1, 0)`, marked
before it, runs after it has returned. -/
theorem cancel_misses_taken_task :
    let f := (((Flusher.create { maxPending := 2 } 0 : Flusher Nat (Nat × Nat)).enqueue 0 (0, 0)
      0).1.enqueue 1 (1, 0) 0).1
    let p := cancelsWhileRunning.journaled.work (f, []) 0 1
    (1, (1, 0)) ∈ f.pending.toList ∧ ((f.startCycle 0).1.cancel 1).2 = false ∧
      p.2.map (·.task) = [(1, 0), (0, 0)] := by
  decide +kernel

end FlushHost

end Stowage
