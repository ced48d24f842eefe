import Stowage.Proofs.Flusher.Cycle
import Stowage.Console.Flusher
/-!
The lanes of a flusher stay in order over every run.

In every state a flusher reaches (through the marks, cancellations, flush requests and close
requests of its callers, the worker's cycles and its drain, and whatever tasks do to it while
they run) each key is pending at most once, waits for retry at most once, and never both; a
pending task has not run yet; and a task waiting for retry has run exactly as many times as its
entry counts failed attempts, at least once and, under a retry limit, fewer times than the
limit. So no task runs more often than the limit allows, the drain's rounds included.

A task's runs are counted by the task itself (`runs`), one more after each run. While a task
runs, the flusher changes only as its callers can change it: by marks of tasks that have not
run, by cancellations, by flush requests and by asking it to close.
-/
namespace Stowage

/-- A retry entry that counts its task's runs: the task ran as often as the entry counts failed
attempts, at least once, and under a limit fewer times than the limit. -/
def Retry.Counted {τ : Type} (runs : τ → Nat) (limit : Nat) (r : Retry τ) : Prop :=
  r.attempts = runs r.task ∧ 0 < r.attempts ∧ (0 < limit → r.attempts < limit)

namespace Flusher

variable {κ τ : Type} (runs : τ → Nat)

/-- The lanes in order: distinct keys in each lane and none in both, pending tasks that have
not run, and retries that count their tasks' runs under the retry limit. -/
structure Orderly (f : Flusher κ τ) : Prop where
  pendingNodup : f.pending.keys.Nodup
  retryNodup : f.retry.keys.Nodup
  disjoint : ∀ k ∈ f.pending.keys, k ∉ f.retry.keys
  fresh : f.pending.Tied fun _ t => runs t = 0
  counted : f.retry.Tied fun _ r => r.Counted runs f.options.retryLimit

variable {runs}

theorem Orderly.sublanes {f g : Flusher κ τ} (h : f.Orderly runs)
    (hp : g.pending.Subqueue f.pending) (hr : g.retry.Subqueue f.retry)
    (hl : g.options.retryLimit = f.options.retryLimit) : g.Orderly runs := by
  refine ⟨h.pendingNodup.sublist hp.1, h.retryNodup.sublist hr.1, ?_, h.fresh.subqueue hp, ?_⟩
  · exact fun k hk hk' => h.disjoint k (hp.1.subset hk) (hr.1.subset hk')
  · rw [hl]
    exact h.counted.subqueue hr

theorem Orderly.frame {f g : Flusher κ τ} (h : f.Orderly runs) (hp : g.pending = f.pending)
    (hr : g.retry = f.retry) (hl : g.options.retryLimit = f.options.retryLimit) :
    g.Orderly runs :=
  h.sublanes (hp ▸ KeyedQueue.Subqueue.refl _) (hr ▸ KeyedQueue.Subqueue.refl _) hl

theorem orderly_create (options : FlusherOptions) (now : Nat) :
    (create options now : Flusher κ τ).Orderly runs :=
  ⟨List.nodup_nil, List.nodup_nil, (fun _ h => absurd h List.not_mem_nil),
    KeyedQueue.tied_empty _, KeyedQueue.tied_empty _⟩

variable [BEq κ] (runs)

/-- What a caller can do to a flusher: mark a task that has not run yet, cancel a key, ask for
a flush, or ask the flusher to close. -/
inductive Call : Flusher κ τ → Flusher κ τ → Prop
  | mark (f : Flusher κ τ) (k : κ) (t : τ) (now : Nat) : runs t = 0 → Call f (f.enqueue k t now).1
  | cancel (f : Flusher κ τ) (k : κ) : Call f (f.cancel k).1
  | request (f : Flusher κ τ) : Call f f.request
  | shutdown (f : Flusher κ τ) : Call f { f with shutdown := true }

variable {runs}

section Operations

variable [LawfulBEq κ] {f : Flusher κ τ}

omit [LawfulBEq κ] in
theorem enqueue_lanes (f : Flusher κ τ) (k : κ) (t : τ) (now : Nat) :
    (f.enqueue k t now).1.options = f.options ∧
      ((f.enqueue k t now).1.pending = f.pending ∧ (f.enqueue k t now).1.retry = f.retry ∨
        (f.enqueue k t now).1.pending = (f.pending.push k t now).1 ∧
          (f.enqueue k t now).1.retry = (f.retry.remove k).1) := by
  unfold enqueue
  split
  · exact ⟨rfl, .inl ⟨rfl, rfl⟩⟩
  split
  · exact ⟨rfl, .inl ⟨rfl, rfl⟩⟩
  dsimp only
  split <;> exact ⟨rfl, .inr ⟨rfl, rfl⟩⟩

theorem Orderly.push_remove (h : f.Orderly runs) {g : Flusher κ τ} {k : κ} {t : τ}
    (ht : runs t = 0) {now : Nat} (hp : g.pending = (f.pending.push k t now).1)
    (hr : g.retry = (f.retry.remove k).1) (hl : g.options.retryLimit = f.options.retryLimit) :
    g.Orderly runs := by
  have hpk : g.pending.keys = if k ∈ f.pending.keys then f.pending.keys else f.pending.keys ++ [k] := by
    rw [hp, KeyedQueue.keys_push]
  have hrk : g.retry.keys = f.retry.keys.filter fun x => !(x == k) := by
    rw [hr, KeyedQueue.keys_remove]
  refine ⟨?_, ?_, ?_, hp ▸ h.fresh.push ht now, ?_⟩
  · rw [hpk]
    split
    · exact h.pendingNodup
    · exact List.nodup_append.mpr ⟨h.pendingNodup, List.nodup_singleton k,
        fun a ha b hb hab => ‹k ∉ f.pending.keys› (List.mem_singleton.mp hb ▸ hab ▸ ha)⟩
  · rw [hrk]
    exact h.retryNodup.filter _
  · -- a key already pending was not waiting for retry; the marked key waits no longer
    intro x hx hx'
    rw [hrk, List.mem_filter] at hx'
    rw [hpk] at hx
    split at hx
    · exact h.disjoint x hx hx'.1
    · rcases List.mem_append.mp hx with hx | hx
      · exact h.disjoint x hx hx'.1
      · obtain rfl := List.mem_singleton.mp hx
        simp at hx'
  · rw [hr, hl]
    exact h.counted.remove k

theorem Orderly.enqueue (h : f.Orderly runs) {k : κ} {t : τ} (ht : runs t = 0) (now : Nat) :
    (f.enqueue k t now).1.Orderly runs := by
  obtain ⟨hl, ⟨hp, hr⟩ | ⟨hp, hr⟩⟩ := enqueue_lanes f k t now
  · exact h.frame hp hr (congrArg _ hl)
  · exact h.push_remove ht hp hr (congrArg _ hl)

theorem Orderly.cancel (h : f.Orderly runs) (k : κ) : (f.cancel k).1.Orderly runs :=
  h.sublanes (KeyedQueue.subqueue_remove _ _) (KeyedQueue.subqueue_remove _ _) rfl

theorem Orderly.call (h : f.Orderly runs) {g : Flusher κ τ} (hc : Call runs f g) :
    g.Orderly runs ∧ g.options = f.options := by
  cases hc with
  | mark k t now ht => exact ⟨h.enqueue ht now, (enqueue_lanes f k t now).1⟩
  | cancel k => exact ⟨h.cancel k, rfl⟩
  | request => exact ⟨h.frame rfl rfl rfl, rfl⟩
  | shutdown => exact ⟨h.frame rfl rfl rfl, rfl⟩

/-- The run lemma for callers: any number of calls keeps the lanes in order and the options as
they are. -/
theorem Orderly.calls (h : f.Orderly runs) {g : Flusher κ τ}
    (hc : Relation.ReflTransGen (Call runs) f g) : g.Orderly runs ∧ g.options = f.options := by
  induction hc with
  | refl => exact ⟨h, rfl⟩
  | tail _ step ih =>
    obtain ⟨hg, hgo⟩ := ih
    obtain ⟨hg', hgo'⟩ := hg.call step
    exact ⟨hg', hgo'.trans hgo⟩

theorem settle_lanes (f : Flusher κ τ) (k : κ) (t : τ) (attempts : Nat) (result : Outcome Unit) :
    (f.settle k t attempts result).pending = f.pending ∧
      (f.settle k t attempts result).options = f.options ∧
      ((f.settle k t attempts result).retry = f.retry ∨
        k ∉ f.pending.keys ∧ (0 < f.options.retryLimit → attempts + 1 < f.options.retryLimit) ∧
          (f.settle k t attempts result).retry = (f.retry.push k ⟨t, attempts + 1⟩ 0).1) := by
  unfold settle
  rcases result with e | ⟨⟩
  · dsimp only [count]
    split
    · exact ⟨rfl, rfl, .inl rfl⟩
    · rename_i hkeep
      split
      · exact ⟨rfl, rfl, .inl rfl⟩
      · rename_i hpend
        refine ⟨rfl, rfl, .inr ⟨fun hk => hpend (KeyedQueue.contains_iff.mpr hk), ?_, rfl⟩⟩
        intro hpos
        simp only [Bool.or_eq_true, Bool.not_eq_eq_eq_not, Bool.not_true, Bool.and_eq_true,
          decide_eq_true_eq, not_or, not_and, Nat.not_le] at hkeep
        exact hkeep.2 hpos
  · exact ⟨rfl, rfl, .inl rfl⟩

theorem Orderly.settle (h : f.Orderly runs) {k : κ} {t : τ} {attempts : Nat}
    (ht : runs t = attempts + 1) (result : Outcome Unit) :
    (f.settle k t attempts result).Orderly runs := by
  obtain ⟨hp, hl, hr | ⟨hk, hlim, hr⟩⟩ := settle_lanes f k t attempts result
  · exact h.frame hp hr (congrArg _ hl)
  · have hrk := KeyedQueue.keys_push f.retry k ⟨t, attempts + 1⟩ 0
    rw [← hr] at hrk
    refine ⟨hp ▸ h.pendingNodup, ?_, ?_, hp ▸ h.fresh, ?_⟩
    · rw [hrk]
      split
      · exact h.retryNodup
      · exact List.nodup_append.mpr ⟨h.retryNodup, List.nodup_singleton k,
          fun a ha b hb hab => ‹k ∉ f.retry.keys› (List.mem_singleton.mp hb ▸ hab ▸ ha)⟩
    · -- the task goes back to the retry lane only when no task of its key is pending
      intro x hx hx'
      rw [hp] at hx
      rw [hrk] at hx'
      split at hx'
      · exact h.disjoint x hx hx'
      · rcases List.mem_append.mp hx' with hx' | hx'
        · exact h.disjoint x hx hx'
        · obtain rfl := List.mem_singleton.mp hx'
          exact hk hx
    · rw [hr, hl]
      exact h.counted.push ⟨ht.symm, Nat.succ_pos _, hlim⟩ 0

theorem Orderly.startCycle (h : f.Orderly runs) (now : Nat) :
    (f.startCycle now).1.Orderly runs ∧ (f.startCycle now).1.options = f.options ∧
      (∀ x ∈ (f.startCycle now).2.1, runs x.2 = 0) ∧
      ∀ x ∈ (f.startCycle now).2.2, x.2.Counted runs f.options.retryLimit := by
  unfold Flusher.startCycle
  dsimp only
  split
  · exact ⟨h.sublanes (KeyedQueue.subqueue_empty _) (KeyedQueue.subqueue_empty _) rfl, rfl,
      h.fresh.toList, h.counted.toList⟩
  · exact ⟨h.sublanes (KeyedQueue.subqueue_empty _) (KeyedQueue.Subqueue.refl _) rfl, rfl,
      h.fresh.toList, fun _ hx => absurd hx List.not_mem_nil⟩

end Operations

end Flusher

namespace FlushHost

variable {σ κ τ : Type} [BEq κ] (h : FlushHost σ κ τ) (runs : τ → Nat)

/-- A host whose tasks count their runs: a flusher put back is read back as it was put, a run
gives back its task one run further, and while a task runs the flusher changes only by calls. -/
structure Counting : Prop where
  flusher_update : ∀ s f, h.flusher (h.update s f) = f
  runs_run : ∀ s t, runs (h.run s t).2.1 = runs t + 1
  calls_run : ∀ s t,
    Relation.ReflTransGen (Flusher.Call runs) (h.flusher s) (h.flusher (h.run s t).1)

/-- The host that also logs every task it runs, newest first, with the flusher as the run
started. -/
def logged : FlushHost (σ × List (Flusher κ τ × τ)) κ τ where
  flusher p := h.flusher p.1
  update p f := (h.update p.1 f, p.2)
  run p t :=
    let r := h.run p.1 t
    ((r.1, (h.flusher p.1, t) :: p.2), r.2.1, r.2.2)

/-- The worlds a host reaches from `s₀`: by callers' calls, by marks that a closed flusher
leaves to their callers to run, and by the worker's turns, flush requests, closes and sleeps. -/
inductive Reachable (s₀ : σ) : σ → Prop
  | start : Reachable s₀ s₀
  | call {s : σ} {f : Flusher κ τ} :
    Reachable s₀ s → Flusher.Call runs (h.flusher s) f → Reachable s₀ (h.update s f)
  | runNow {s : σ} {t : τ} :
    Reachable s₀ s → (h.flusher s).closed = true → runs t = 0 → Reachable s₀ (h.run s t).1
  | work {s : σ} (now fuel : Nat) : Reachable s₀ s → Reachable s₀ (h.work s now fuel)
  | flushNow {s : σ} (now : Nat) : Reachable s₀ s → Reachable s₀ (h.flushNow s now)
  | close {s : σ} (now : Nat) : Reachable s₀ s → Reachable s₀ (h.close s now)
  | sleep {s : σ} (now ms : Nat) : Reachable s₀ s → Reachable s₀ (h.sleep s now ms)

variable [LawfulBEq κ] (o : FlusherOptions)

/-- A logged world in order under options `o`: its flusher's lanes are in order under `o`, and
every run so far started from lanes in order, with a task that had run fewer times than the
retry limit. -/
structure Tidy (p : σ × List (Flusher κ τ × τ)) : Prop where
  orderly : (h.flusher p.1).Orderly runs
  options : (h.flusher p.1).options = o
  log : ∀ q ∈ p.2, q.1.Orderly runs ∧ (0 < o.retryLimit → runs q.2 < o.retryLimit)

variable {h runs o} (hh : h.Counting runs)
include hh

omit [LawfulBEq κ] in
theorem Tidy.update {p : σ × List (Flusher κ τ × τ)} (ht : h.Tidy runs o p)
    {f : Flusher κ τ} (hf : f.Orderly runs) (ho : f.options = o) :
    h.Tidy runs o (h.logged.update p f) := by
  refine ⟨?_, ?_, ht.log⟩ <;> simp only [logged, hh.flusher_update]
  · exact hf
  · exact ho

theorem Tidy.run {p : σ × List (Flusher κ τ × τ)} (ht : h.Tidy runs o p)
    {t : τ} (hlim : 0 < o.retryLimit → runs t < o.retryLimit) :
    h.Tidy runs o (h.logged.run p t).1 := by
  obtain ⟨hf, ho⟩ := ht.orderly.calls (hh.calls_run p.1 t)
  refine ⟨hf, ho.trans ht.options, ?_⟩
  intro q hq
  rcases List.mem_cons.mp hq with rfl | hq
  · exact ⟨ht.orderly, hlim⟩
  · exact ht.log q hq

theorem Tidy.execute {p : σ × List (Flusher κ τ × τ)} (ht : h.Tidy runs o p)
    (k : κ) {t : τ} {attempts : Nat} (hrun : runs t = attempts)
    (hlim : 0 < o.retryLimit → attempts < o.retryLimit) :
    h.Tidy runs o (h.logged.execute p k t attempts).1 := by
  have hafter := ht.run hh (hrun ▸ hlim)
  have hcount : runs (h.logged.run p t).2.1 = attempts + 1 := (hh.runs_run p.1 t).trans (by rw [hrun])
  unfold FlushHost.execute
  rcases hr : h.logged.run p t with ⟨p', t', _ | _⟩ <;> rw [hr] at hafter hcount <;>
    dsimp only at hcount ⊢
  · exact hafter.update hh (hafter.orderly.settle hcount _)
      ((Flusher.settle_lanes _ k t' attempts _).2.1.trans hafter.options)
  · exact hafter.update hh (hafter.orderly.frame rfl rfl rfl) hafter.options

theorem Tidy.runBatch (batch : List (κ × τ)) (hb : ∀ x ∈ batch, runs x.2 = 0)
    {p : σ × List (Flusher κ τ × τ)} (ht : h.Tidy runs o p) :
    h.Tidy runs o (h.logged.runBatch p batch).1 := by
  induction batch generalizing p with
  | nil => exact ht
  | cons task rest ih =>
    obtain ⟨k, t⟩ := task
    -- a batch runs first attempts of tasks that have not run
    have hexec := ht.execute hh k (hb (k, t) List.mem_cons_self) fun hpos => hpos
    unfold FlushHost.runBatch
    rcases he : h.logged.execute p k t 0 with ⟨p', _ | _⟩ <;> rw [he] at hexec <;>
      dsimp only at hexec ⊢
    · exact hexec
    · exact ih (fun x hx => hb x (List.mem_cons_of_mem _ hx)) hexec

theorem Tidy.runRetries (retries : List (κ × Retry τ))
    (hr : ∀ x ∈ retries, x.2.Counted runs o.retryLimit)
    {p : σ × List (Flusher κ τ × τ)} (ht : h.Tidy runs o p) :
    h.Tidy runs o (h.logged.runRetries p retries).1 := by
  induction retries generalizing p with
  | nil => exact ht
  | cons task rest ih =>
    obtain ⟨k, r⟩ := task
    obtain ⟨hattempts, -, hlim⟩ : r.Counted runs o.retryLimit := hr (k, r) List.mem_cons_self
    -- the retry is counted before it runs
    have hcounted : h.Tidy runs o (h.logged.modify p fun f =>
        f.count fun st => { st with retried := st.retried + 1 }) :=
      ht.update hh (ht.orderly.frame rfl rfl rfl) ht.options
    have hexec := hcounted.execute hh k hattempts.symm hlim
    unfold FlushHost.runRetries
    dsimp only
    split <;> rename_i heq <;> rw [heq] at hexec <;> dsimp only at hexec
    · exact ih (fun x hx => hr x (List.mem_cons_of_mem _ hx)) hexec
    · exact hexec

theorem Tidy.cycle {p : σ × List (Flusher κ τ × τ)} (ht : h.Tidy runs o p)
    (now : Nat) : h.Tidy runs o (h.logged.cycle p now).1 := by
  obtain ⟨hf, ho, hbatch, hretries⟩ := ht.orderly.startCycle now
  unfold FlushHost.cycle
  rcases hc : (h.logged.flusher p).startCycle now with ⟨f, batch, retries⟩
  simp only [logged] at hc
  rw [hc] at hf ho hbatch hretries
  dsimp only at hf ho hbatch hretries ⊢
  rw [ht.options] at ho hretries
  have hrun := Tidy.runBatch hh batch hbatch (ht.update hh hf ho)
  rcases hb : h.logged.runBatch (h.logged.update p f) batch with ⟨p', _ | _⟩ <;>
    rw [hb] at hrun <;> dsimp only at hrun ⊢
  · exact hrun
  · -- the cycle answers the requests it took once its retries have run
    have hdone := Tidy.runRetries hh retries hretries hrun
    rcases hr : h.logged.runRetries p' retries with ⟨p'', _ | _⟩ <;> rw [hr] at hdone <;>
      dsimp only at hdone ⊢
    · exact hdone
    · exact hdone.update hh (hdone.orderly.frame rfl rfl rfl) hdone.options

theorem Tidy.drainPending (fuel : Nat) {p : σ × List (Flusher κ τ × τ)}
    (ht : h.Tidy runs o p) :
    h.Tidy runs o (h.logged.drainPending p fuel).1 := by
  induction fuel generalizing p with
  | zero => exact ht
  | succ fuel ih =>
    unfold FlushHost.drainPending
    dsimp only
    split
    · exact ht
    · -- the drain takes the whole pending lane, as a cycle does
      have hbatch := Tidy.runBatch hh (h.logged.flusher p).pending.toList ht.orderly.fresh.toList
        (ht.update hh (ht.orderly.sublanes (KeyedQueue.subqueue_empty _) (KeyedQueue.Subqueue.refl _) rfl)
          ht.options (f := { h.logged.flusher p with pending := KeyedQueue.empty }))
      rcases hb : h.logged.runBatch (h.logged.update p { h.logged.flusher p with
        pending := KeyedQueue.empty }) (h.logged.flusher p).pending.toList with ⟨p', _ | _⟩ <;>
        rw [hb] at hbatch
      · exact hbatch
      · exact ih hbatch

theorem Tidy.drainRetries (rounds : Nat) {p : σ × List (Flusher κ τ × τ)}
    (ht : h.Tidy runs o p) :
    h.Tidy runs o (h.logged.drainRetries p rounds).1 := by
  induction rounds generalizing p with
  | zero => exact ht
  | succ rounds ih =>
    unfold FlushHost.drainRetries
    dsimp only
    split
    · exact ht
    · -- each round takes the whole retry lane, whose entries count their tasks' runs
      have hcounted : ∀ x ∈ (h.logged.flusher p).retry.toList, x.2.Counted runs o.retryLimit :=
        ht.options ▸ ht.orderly.counted.toList
      have hretries := Tidy.runRetries hh (h.logged.flusher p).retry.toList hcounted
        (ht.update hh (ht.orderly.sublanes (KeyedQueue.Subqueue.refl _) (KeyedQueue.subqueue_empty _) rfl)
          ht.options (f := { h.logged.flusher p with retry := KeyedQueue.empty }))
      rcases hr : h.logged.runRetries (h.logged.update p { h.logged.flusher p with
        retry := KeyedQueue.empty }) (h.logged.flusher p).retry.toList with ⟨p', _ | _⟩ <;>
        rw [hr] at hretries
      · exact hretries
      · exact ih hretries

theorem Tidy.runLate (late : List τ) (hl : ∀ t ∈ late, runs t = 0)
    {p : σ × List (Flusher κ τ × τ)} (ht : h.Tidy runs o p) :
    h.Tidy runs o (h.logged.runLate p late).1 := by
  induction late generalizing p with
  | nil => exact ht
  | cons t rest ih =>
    -- a late task has not run: it was marked during the drain
    have hrun := ht.run hh (t := t) fun hpos => (hl t List.mem_cons_self).symm ▸ hpos
    unfold FlushHost.runLate
    rcases hr : h.logged.run p t with ⟨p', t', _ | _⟩ <;> rw [hr] at hrun <;>
      dsimp only at hrun ⊢
    · exact ih (fun x hx => hl x (List.mem_cons_of_mem _ hx)) hrun
    · exact hrun.update hh (hrun.orderly.frame rfl rfl rfl) hrun.options

theorem Tidy.drain {p : σ × List (Flusher κ τ × τ)} (ht : h.Tidy runs o p)
    (fuel : Nat) : h.Tidy runs o (h.logged.drain p fuel) := by
  unfold FlushHost.drain
  have hpending := ht.drainPending hh fuel
  rcases hp : h.logged.drainPending p fuel with ⟨p₁, _ | _⟩ <;> rw [hp] at hpending <;>
    dsimp only at hpending ⊢
  · exact hpending
  · have hretries := hpending.drainRetries hh (h.logged.flusher p₁).options.drainAttempts
    rcases hr : h.logged.drainRetries p₁ (h.logged.flusher p₁).options.drainAttempts with
      ⟨p₂, _ | _⟩ <;> rw [hr] at hretries <;> dsimp only at hretries ⊢
    · exact hretries
    · -- the tasks marked during the drain get their last attempt with the flusher closed
      have hclosed := hretries.update hh
        (hretries.orderly.sublanes (KeyedQueue.subqueue_empty _) (KeyedQueue.Subqueue.refl _) rfl)
        hretries.options (f := { h.logged.flusher p₂ with
          pending := KeyedQueue.empty, closed := true,
          completed := (h.logged.flusher p₂).requested })
      have hfresh : ∀ t ∈ (h.logged.flusher p₂).pending.toList.map (·.2), runs t = 0 := by
        intro t ht'
        obtain ⟨x, hx, rfl⟩ := List.mem_map.mp ht'
        exact hretries.orderly.fresh.toList x hx
      have hlate := Tidy.runLate hh _ hfresh hclosed
      split <;> rename_i heq <;> rw [heq] at hlate <;> dsimp only at hlate
      · exact hlate
      · exact hlate.update hh (hlate.orderly.frame rfl rfl rfl) hlate.options

/-- The run lemma of the worker: a turn of work keeps a logged world in order. -/
theorem Tidy.work (now fuel : Nat) {p : σ × List (Flusher κ τ × τ)}
    (ht : h.Tidy runs o p) :
    h.Tidy runs o (h.logged.work p now fuel) := by
  induction fuel generalizing p with
  | zero => exact ht
  | succ fuel ih =>
    unfold FlushHost.work
    dsimp only
    split
    · exact ht
    · split
      · exact ht.drain hh _
      · split
        · have hcycle := ht.cycle hh now
          rcases hc : h.logged.cycle p now with ⟨p', _ | _⟩ <;> rw [hc] at hcycle <;>
            dsimp only at hcycle ⊢
          · exact hcycle
          · exact ih hcycle
        · exact ht

theorem Tidy.flushNow {p : σ × List (Flusher κ τ × τ)} (ht : h.Tidy runs o p)
    (now : Nat) : h.Tidy runs o (h.logged.flushNow p now) := by
  unfold FlushHost.flushNow
  split
  · exact ht
  · exact Tidy.work hh now _ (ht.update hh (ht.orderly.frame rfl rfl rfl) ht.options)

theorem Tidy.close {p : σ × List (Flusher κ τ × τ)} (ht : h.Tidy runs o p)
    (now : Nat) : h.Tidy runs o (h.logged.close p now) := by
  unfold FlushHost.close
  split
  · exact ht
  · exact Tidy.work hh now _ (ht.update hh (ht.orderly.frame rfl rfl rfl) ht.options)

theorem Tidy.sleep {p : σ × List (Flusher κ τ × τ)} (ht : h.Tidy runs o p)
    (now ms : Nat) : h.Tidy runs o (h.logged.sleep p now ms) := by
  unfold FlushHost.sleep
  -- the timer walk wakes the worker at each deadline up to the end of the sleep
  suffices ∀ fuel t p, h.Tidy runs o p →
      h.Tidy runs o (sleep.go h.logged now ms p t fuel) from this _ _ _ ht
  intro fuel
  induction fuel with
  | zero => intro t p ht; exact ht
  | succ fuel ih =>
    intro t p ht
    unfold sleep.go
    dsimp only
    split
    · exact ht
    · split
      · exact ht
      · have hwork := Tidy.work hh (max (h.logged.flusher p).deadline t) turnFuel ht
        split
        · exact ih _ _ hwork
        · exact ih _ _ hwork

/-- The run lemma: every logged world reached from a new flusher under options `o`, with an
empty log, is in order. -/
theorem Reachable.tidy {s₀ : σ} {now : Nat} (h₀ : h.flusher s₀ = Flusher.create o now)
    {p : σ × List (Flusher κ τ × τ)} (hp : h.logged.Reachable runs (s₀, []) p) :
    h.Tidy runs o p := by
  induction hp with
  | start =>
    refine ⟨?_, ?_, fun _ hq => absurd hq List.not_mem_nil⟩ <;> simp only [h₀]
    · exact Flusher.orderly_create o now
    · rfl
  | call _ hc ih =>
    obtain ⟨hf, ho⟩ := ih.orderly.call hc
    exact ih.update hh hf (ho.trans ih.options)
  | runNow _ _ hfresh ih => exact ih.run hh fun hpos => hfresh ▸ hpos
  | work now fuel _ ih => exact ih.work hh now fuel
  | flushNow now _ ih => exact ih.flushNow hh now
  | close now _ ih => exact ih.close hh now
  | sleep now ms _ ih => exact ih.sleep hh now ms

omit hh in
/-- **The lanes of a flusher stay in order.** In every world reached from a new flusher with
options `o`, each key is pending at most once, waits for retry at most once and never both, a
pending task has not run, and every retry entry's attempts are its task's runs, at least one
and, under a retry limit, fewer than the limit; and every task run so far, by the worker, its
drain or a caller of a closed flusher, started from lanes in order after fewer runs than the
limit, so no task runs more often than the limit. -/
theorem lanes_orderly (hh : h.Counting runs) {s₀ : σ} {now : Nat}
    (h₀ : h.flusher s₀ = Flusher.create o now) {p : σ × List (Flusher κ τ × τ)}
    (hp : h.logged.Reachable runs (s₀, []) p) :
    (h.flusher p.1).Orderly runs ∧ (h.flusher p.1).options = o ∧
      ∀ q ∈ p.2, q.1.Orderly runs ∧ (0 < o.retryLimit → runs q.2 < o.retryLimit) :=
  let tidy := Reachable.tidy hh h₀ hp
  ⟨tidy.orderly, tidy.options, tidy.log⟩

end FlushHost

namespace Console

open Relation

/-- What a running script does to the flusher, allowed by `R`: marking a task that has not run
under the key of its script, and asking the flusher to close. -/
structure ScriptCalls (R : Flusher String ScriptedTask → Flusher String ScriptedTask → Prop) :
    Prop where
  mark : ∀ (f : Flusher String ScriptedTask) (sub : TaskScript) (now : Nat),
    R f (f.enqueue sub.key ⟨sub, 0⟩ now).1
  shutdown : ∀ f : Flusher String ScriptedTask, R f { f with shutdown := true }

section Scripts

variable {R : Flusher String ScriptedTask → Flusher String ScriptedTask → Prop} (hR : ScriptCalls R)
include hR

theorem calls_takeFlusher (b : FlushBench) (name : String) (takes : Bool) (n : Nat) :
    ReflTransGen R b.flusher
      (if (takes && n == 0) = true then
        ({ b with handedOver := true, flusher := { b.flusher with shutdown := true } }).note
          (name ++ ":dropped flusher")
      else b).flusher := by
  split
  · exact .single (hR.shutdown _)
  · exact .refl

mutual

theorem calls_runScript : ∀ (b : FlushBench) (sc : TaskScript) (n : Nat),
    ReflTransGen R b.flusher (runScript b sc n).1.flusher
  | b, .mk key name results marks takes, n => by
    have hmarks := calls_runMarks
      (if (takes && n == 0) = true then
        ({ b with handedOver := true, flusher := { b.flusher with shutdown := true } }).note
          (name ++ ":dropped flusher")
      else b) name n marks
    have htake := calls_takeFlusher hR b name takes n
    rw [runScript]
    dsimp only
    rcases hm : runMarks _ name n marks with ⟨b₂, _ | _⟩ <;> rw [hm] at hmarks
    · exact htake.trans hmarks
    · dsimp only
      split
      · exact htake.trans hmarks
      · split <;> exact htake.trans hmarks

theorem calls_runMarks : ∀ (b : FlushBench) (name : String) (n : Nat) (marks : List (Nat × TaskScript)),
    ReflTransGen R b.flusher (runMarks b name n marks).1.flusher
  | b, name, n, [] => by rw [runMarks]
  | b, name, n, (attempt, sub) :: rest => by
    rw [runMarks]
    split
    · exact calls_runMarks b name n rest
    · have hsub := calls_runScript b sub 0
      rcases hq : b.flusher.enqueue sub.key ⟨sub, 0⟩ b.now with ⟨f, _ | _⟩ <;> dsimp only
      · have hstep : R b.flusher f := by
          have := hR.mark b.flusher sub b.now
          rwa [hq] at this
        exact .head hstep (calls_runMarks ({ b with flusher := f }.note _) name n rest)
      · -- a closed flusher leaves the marked task to run at once, and changes not
        rcases hr : runScript b sub 0 with ⟨b₂, _ | _⟩ <;> rw [hr] at hsub <;> dsimp only at hsub ⊢
        · exact hsub.trans (calls_runMarks (b₂.note _) name n rest)
        · exact hsub

end

end Scripts

theorem benchHost_counting : benchHost.Counting ScriptedTask.runs where
  flusher_update _ _ := rfl
  runs_run _ _ := rfl
  calls_run b t :=
    calls_runScript ⟨fun f sub now => .mark f sub.key ⟨sub, 0⟩ now rfl, .shutdown⟩ b t.script t.runs

/-- A task that fails transiently at every run, marked once and flushed twice under a limit of
two runs: after its second run it is dropped. -/
theorem lanes_orderly_retry_dropped :
    let o : FlusherOptions := { retryLimit := 2 }
    let s₀ : FlushBench := ⟨Flusher.create o 0, [], 0, false⟩
    let t : ScriptedTask := ⟨.mk "a" "A" ["backend"] [] false, 0⟩
    let p := benchHost.logged.flushNow (benchHost.logged.flushNow
      (benchHost.logged.update (s₀, []) ((Flusher.create o 0).enqueue "a" t 0).1) 0) 0
    (benchHost.flusher p.1).Orderly ScriptedTask.runs ∧ (benchHost.flusher p.1).options = o ∧
      ∀ q ∈ p.2, q.1.Orderly ScriptedTask.runs ∧ (0 < o.retryLimit → q.2.runs < o.retryLimit) :=
  FlushHost.lanes_orderly benchHost_counting rfl
    (.flushNow 0 (.flushNow 0 (.call .start (.mark _ "a" _ 0 rfl))))

example :
    let o : FlusherOptions := { retryLimit := 2 }
    let s₀ : FlushBench := ⟨Flusher.create o 0, [], 0, false⟩
    let t : ScriptedTask := ⟨.mk "a" "A" ["backend"] [] false, 0⟩
    let p := benchHost.logged.flushNow (benchHost.logged.flushNow
      (benchHost.logged.update (s₀, []) ((Flusher.create o 0).enqueue "a" t 0).1) 0) 0
    p.2.map (·.2.runs) = [1, 0] ∧ (benchHost.flusher p.1).retry.slots.length = 0 ∧ p.1.log = ["A:backend", "A:backend"] := by
  decide +kernel

end Console

end Stowage
