import Stowage.Proofs.Flusher.Lanes
/-!
Journals of the runs a flusher's host makes.

The journaled host is a host with a journal beside its world: every run of a task adds an entry
with the flusher as the run found it, the task, and the flusher as the run left it, newest
first. The worker's own changes to the flusher (taking a lane, settling a run, closing) fall
between entries, so within an entry of a counting host the flusher changes only by calls.

A run that panics takes the worker down, and every step of the worker that stops early leaves it
dead. So a step that goes to its end ran every task it took, and the journal shows them in the
order they ran.
-/
namespace Stowage

/-- One run of a task: the flusher as the run found it, the task, and the flusher as the run
left it. -/
structure Entry (κ τ : Type) where
  before : Flusher κ τ
  task : τ
  after : Flusher κ τ

namespace FlushHost

variable {σ κ τ : Type} [BEq κ] (h : FlushHost σ κ τ)

/-- The host with a journal of its runs, newest first. -/
def journaled : FlushHost (σ × List (Entry κ τ)) κ τ where
  flusher p := h.flusher p.1
  update p f := (h.update p.1 f, p.2)
  run p t :=
    let r := h.run p.1 t
    ((r.1, ⟨h.flusher p.1, t, h.flusher r.1⟩ :: p.2), r.2.1, r.2.2)

variable {h}

omit [BEq κ] in
theorem journaled_flusher_update (hfu : ∀ s f, h.flusher (h.update s f) = f)
    (p : σ × List (Entry κ τ)) (f : Flusher κ τ) : h.journaled.flusher (h.journaled.update p f) = f :=
  hfu p.1 f

theorem Counting.journaled {runs : τ → Nat} (hh : h.Counting runs) : h.journaled.Counting runs where
  flusher_update p f := hh.flusher_update p.1 f
  runs_run p t := hh.runs_run p.1 t
  calls_run p t := hh.calls_run p.1 t

/-! ### Stopping early -/

section Stopping

variable {g : FlushHost σ κ τ} (hfu : ∀ s f, g.flusher (g.update s f) = f)
include hfu

theorem execute_dead {s s' : σ} {k : κ} {t : τ} {attempts : Nat}
    (he : g.execute s k t attempts = (s', false)) : (g.flusher s').worker = .dead := by
  unfold execute at he
  rcases hr : g.run s t with ⟨s₁, t₁, _ | _⟩ <;> rw [hr] at he <;> simp only [Prod.mk.injEq] at he
  · cases he.2
  · rw [← he.1, modify, hfu]

theorem runBatch_dead (batch : List (κ × τ)) {s s' : σ} (hb : g.runBatch s batch = (s', false)) :
    (g.flusher s').worker = .dead := by
  induction batch generalizing s with
  | nil => cases hb
  | cons task rest ih =>
    obtain ⟨k, t⟩ := task
    unfold runBatch at hb
    rcases he : g.execute s k t 0 with ⟨s₁, _ | _⟩ <;> rw [he] at hb <;> dsimp only at hb
    · cases hb
      exact execute_dead hfu he
    · exact ih hb

theorem runRetries_dead (retries : List (κ × Retry τ)) {s s' : σ}
    (hr : g.runRetries s retries = (s', false)) : (g.flusher s').worker = .dead := by
  induction retries generalizing s with
  | nil => cases hr
  | cons task rest ih =>
    obtain ⟨k, r⟩ := task
    unfold runRetries at hr
    dsimp only at hr
    split at hr <;> rename_i he
    · exact ih hr
    · cases hr
      exact execute_dead hfu he

theorem cycle_dead {s s' : σ} {now : Nat} (hc : g.cycle s now = (s', false)) :
    (g.flusher s').worker = .dead := by
  unfold cycle at hc
  dsimp only at hc
  split at hc <;> rename_i hb
  · split at hc <;> rename_i hr
    · cases hc
    · cases hc
      exact runRetries_dead hfu _ hr
  · cases hc
    exact runBatch_dead hfu _ hb

theorem drainPending_dead (fuel : Nat) {s s' : σ} (hd : g.drainPending s fuel = (s', false)) :
    (g.flusher s').worker = .dead := by
  induction fuel generalizing s with
  | zero => cases hd
  | succ fuel ih =>
    unfold drainPending at hd
    dsimp only at hd
    split at hd
    · cases hd
    · split at hd <;> rename_i hb
      · exact ih hd
      · cases hd
        exact runBatch_dead hfu _ hb

theorem drainRetries_dead (rounds : Nat) {s s' : σ} (hd : g.drainRetries s rounds = (s', false)) :
    (g.flusher s').worker = .dead := by
  induction rounds generalizing s with
  | zero => cases hd
  | succ rounds ih =>
    unfold drainRetries at hd
    dsimp only at hd
    split at hd
    · cases hd
    · split at hd <;> rename_i hr
      · exact ih hd
      · cases hd
        exact runRetries_dead hfu _ hr

omit [BEq κ] in
theorem runLate_dead (late : List τ) {s s' : σ} (hl : g.runLate s late = (s', false)) :
    (g.flusher s').worker = .dead := by
  induction late generalizing s with
  | nil => cases hl
  | cons t rest ih =>
    unfold runLate at hl
    rcases hr : g.run s t with ⟨s₁, t₁, _ | _⟩ <;> rw [hr] at hl <;> dsimp only at hl
    · exact ih hl
    · cases hl
      rw [modify, hfu]

end Stopping

/-! ### What the journal shows -/

section Shows

variable (p : σ × List (Entry κ τ))

omit [BEq κ] in
theorem journal_run (t : τ) :
    (h.journaled.run p t).1.2 = ⟨h.flusher p.1, t, h.flusher (h.run p.1 t).1⟩ :: p.2 := rfl

theorem journal_execute (k : κ) (t : τ) (attempts : Nat) :
    (h.journaled.execute p k t attempts).1.2 =
      ⟨h.flusher p.1, t, h.flusher (h.run p.1 t).1⟩ :: p.2 := by
  unfold execute
  rcases hr : h.journaled.run p t with ⟨p₁, t₁, _ | _⟩ <;>
    have hj := journal_run (h := h) p t <;> rw [hr] at hj <;> exact hj

theorem flusher_execute {p' : σ × List (Entry κ τ)} {k : κ} {t : τ} {attempts : Nat}
    (hfu : ∀ s f, h.flusher (h.update s f) = f) (he : h.journaled.execute p k t attempts = (p', true)) :
    ∃ t' r, h.flusher p'.1 = (h.flusher (h.run p.1 t).1).settle k t' attempts r := by
  unfold execute at he
  rcases hr : h.run p.1 t with ⟨s₁, t₁, _ | _⟩
  · rename_i r
    have hj : h.journaled.run p t = ((s₁, ⟨h.flusher p.1, t, h.flusher s₁⟩ :: p.2), t₁, .finished r) := by
      simp [journaled, hr]
    rw [hj] at he
    simp only [Prod.mk.injEq, and_true] at he
    refine ⟨t₁, r, ?_⟩
    rw [← he]
    exact hfu _ _
  · have hj : h.journaled.run p t = ((s₁, ⟨h.flusher p.1, t, h.flusher s₁⟩ :: p.2), t₁, .panicked) := by
      simp [journaled, hr]
    rw [hj] at he
    simp at he

end Shows

end FlushHost

end Stowage
