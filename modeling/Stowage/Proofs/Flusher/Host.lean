import Stowage.Flusher.Worker
/-!
What the flusher's worker keeps of the world it runs in.

The worker changes its world in two ways only: it puts a changed flusher back, and it runs a
task. So a property of the world that both keep is kept by every cycle, drain, flush request,
close and sleep of the worker, however the tasks end and however many of them run.
-/
namespace Stowage

namespace FlushHost

variable {σ κ τ : Type} [BEq κ] (h : FlushHost σ κ τ) (P : σ → Prop)

/-- A property of the world kept by putting the flusher back and by running a task. -/
structure Keeps : Prop where
  update : ∀ s f, P s → P (h.update s f)
  run : ∀ s t, P s → P (h.run s t).1

variable {h P}

omit [BEq κ] in
theorem Keeps.modify (hk : h.Keeps P) {s : σ} (hs : P s) (g : Flusher κ τ → Flusher κ τ) :
    P (h.modify s g) :=
  hk.update s _ hs

theorem Keeps.execute (hk : h.Keeps P) {s : σ} (hs : P s) (k : κ) (t : τ) (attempts : Nat) :
    P (h.execute s k t attempts).1 := by
  have hrun := hk.run s t hs
  unfold FlushHost.execute
  rcases hr : h.run s t with ⟨s', t', _ | _⟩ <;> rw [hr] at hrun <;>
      dsimp only at hrun ⊢ <;> exact hk.modify hrun _

theorem Keeps.runBatch (hk : h.Keeps P) (batch : List (κ × τ)) {s : σ} (hs : P s) :
    P (h.runBatch s batch).1 := by
  induction batch generalizing s with
  | nil => exact hs
  | cons task rest ih =>
    obtain ⟨k, t⟩ := task
    have hexec := hk.execute hs k t 0
    unfold FlushHost.runBatch
    rcases he : h.execute s k t 0 with ⟨s', _ | _⟩ <;> rw [he] at hexec <;>
      dsimp only at hexec ⊢
    · exact hexec
    · exact ih hexec

theorem Keeps.runRetries (hk : h.Keeps P) (retries : List (κ × Retry τ)) {s : σ} (hs : P s) :
    P (h.runRetries s retries).1 := by
  induction retries generalizing s with
  | nil => exact hs
  | cons task rest ih =>
    obtain ⟨k, r⟩ := task
    -- the retry is counted before it runs
    have hexec := hk.execute (hk.modify hs fun f => f.count fun st =>
      { st with retried := st.retried + 1 }) k r.task r.attempts
    unfold FlushHost.runRetries
    dsimp only
    split <;> rename_i heq <;> rw [heq] at hexec <;> dsimp only at hexec
    · exact ih hexec
    · exact hexec

theorem Keeps.cycle (hk : h.Keeps P) {s : σ} (hs : P s) (now : Nat) : P (h.cycle s now).1 := by
  unfold FlushHost.cycle
  rcases hc : (h.flusher s).startCycle now with ⟨f, batch, retries⟩
  dsimp only
  have hbatch := hk.runBatch batch (hk.update s f hs)
  rcases hb : h.runBatch (h.update s f) batch with ⟨s', _ | _⟩ <;> rw [hb] at hbatch <;>
      dsimp only at hbatch ⊢
  · exact hbatch
  · -- the cycle answers the requests it took once its retries have run
    have hretries := hk.runRetries retries hbatch
    rcases hr : h.runRetries s' retries with ⟨s'', _ | _⟩ <;> rw [hr] at hretries <;>
      dsimp only at hretries ⊢
    · exact hretries
    · exact hk.modify hretries _

theorem Keeps.drainPending (hk : h.Keeps P) (fuel : Nat) {s : σ} (hs : P s) :
    P (h.drainPending s fuel).1 := by
  induction fuel generalizing s with
  | zero => exact hs
  | succ fuel ih =>
    unfold FlushHost.drainPending
    dsimp only
    split
    · exact hs
    · have hbatch := hk.runBatch (h.flusher s).pending.toList
        (hk.update s { h.flusher s with pending := KeyedQueue.empty } hs)
      rcases hb : h.runBatch (h.update s { h.flusher s with pending := KeyedQueue.empty })
        (h.flusher s).pending.toList with ⟨s', _ | _⟩ <;> rw [hb] at hbatch
      · exact hbatch
      · exact ih hbatch

theorem Keeps.drainRetries (hk : h.Keeps P) (rounds : Nat) {s : σ} (hs : P s) :
    P (h.drainRetries s rounds).1 := by
  induction rounds generalizing s with
  | zero => exact hs
  | succ rounds ih =>
    unfold FlushHost.drainRetries
    dsimp only
    split
    · exact hs
    · have hretries := hk.runRetries (h.flusher s).retry.toList
        (hk.update s { h.flusher s with retry := KeyedQueue.empty } hs)
      rcases hr : h.runRetries (h.update s { h.flusher s with retry := KeyedQueue.empty })
        (h.flusher s).retry.toList with ⟨s', _ | _⟩ <;> rw [hr] at hretries
      · exact hretries
      · exact ih hretries

omit [BEq κ] in
theorem Keeps.runLate (hk : h.Keeps P) (late : List τ) {s : σ} (hs : P s) :
    P (h.runLate s late).1 := by
  induction late generalizing s with
  | nil => exact hs
  | cons t rest ih =>
    have hrun := hk.run s t hs
    unfold FlushHost.runLate
    rcases hr : h.run s t with ⟨s', t', _ | _⟩ <;> rw [hr] at hrun <;>
      dsimp only at hrun ⊢
    · exact ih hrun
    · exact hk.modify hrun _

theorem Keeps.drain (hk : h.Keeps P) {s : σ} (hs : P s) (fuel : Nat) : P (h.drain s fuel) := by
  unfold FlushHost.drain
  have hpending := hk.drainPending fuel hs
  rcases hp : h.drainPending s fuel with ⟨s₁, _ | _⟩ <;> rw [hp] at hpending <;>
      dsimp only at hpending ⊢
  · exact hpending
  · have hretries := hk.drainRetries (h.flusher s₁).options.drainAttempts hpending
    rcases hr : h.drainRetries s₁ (h.flusher s₁).options.drainAttempts with ⟨s₂, _ | _⟩ <;>
      rw [hr] at hretries <;>
      dsimp only at hretries ⊢
    · exact hretries
    · -- the tasks marked during the drain get their last attempt with the flusher closed
      have hlate := hk.runLate ((h.flusher s₂).pending.toList.map (·.2))
        (hk.update s₂
          { h.flusher s₂ with pending := KeyedQueue.empty, closed := true,
                              completed := (h.flusher s₂).requested }
          hretries)
      split <;> rename_i heq <;> rw [heq] at hlate <;> dsimp only at hlate
      · exact hlate
      · exact hk.modify hlate _

/-- The run lemma of the worker: a turn of work keeps what the flusher and the tasks keep. -/
theorem Keeps.work (hk : h.Keeps P) (now fuel : Nat) {s : σ} (hs : P s) : P (h.work s now fuel) := by
  induction fuel generalizing s with
  | zero => exact hs
  | succ fuel ih =>
    unfold FlushHost.work
    dsimp only
    split
    · exact hs
    · split
      · exact hk.drain hs _
      · split
        · have hcycle := hk.cycle hs now
          rcases hc : h.cycle s now with ⟨s', _ | _⟩ <;> rw [hc] at hcycle <;>
      dsimp only at hcycle ⊢
          · exact hcycle
          · exact ih hcycle
        · exact hs

theorem Keeps.flushNow (hk : h.Keeps P) {s : σ} (hs : P s) (now : Nat) : P (h.flushNow s now) := by
  unfold FlushHost.flushNow
  split
  · exact hs
  · exact hk.work now _ (hk.modify hs _)

theorem Keeps.close (hk : h.Keeps P) {s : σ} (hs : P s) (now : Nat) : P (h.close s now) := by
  unfold FlushHost.close
  split
  · exact hs
  · exact hk.work now _ (hk.modify hs _)

theorem Keeps.sleep (hk : h.Keeps P) {s : σ} (hs : P s) (now ms : Nat) : P (h.sleep s now ms) := by
  unfold FlushHost.sleep
  -- the timer walk wakes the worker at each deadline up to the end of the sleep
  suffices ∀ fuel t s, P s → P (sleep.go h now ms s t fuel) from this _ _ _ hs
  intro fuel
  induction fuel with
  | zero => intro t s hs; exact hs
  | succ fuel ih =>
    intro t s hs
    unfold sleep.go
    dsimp only
    split
    · exact hs
    · split
      · exact hs
      · have hwork := hk.work (max (h.flusher s).deadline t) turnFuel hs
        split
        · exact ih _ _ hwork
        · exact ih _ _ hwork

end FlushHost

end Stowage
