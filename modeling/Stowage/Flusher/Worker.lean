import Stowage.Flusher.Basic
/-!
The flusher's worker.

Tasks run through their host: a host is the world the flusher lives in, with the way to find
the flusher in it and the way to run one task. A task may change the world, the flusher
included (a task can mark other tasks), so the worker reads the flusher back after each run.
A run that panics takes the worker down: the rest of its batch is lost and the flusher never
closes.

The worker runs cycles while it has a reason to wake: a flush request, a full pending queue,
the oldest pending task waiting out its delay, or the period. Flush requests are counted: a
cycle takes every request made before it starts, and answers them when it ends; a caller of
`flushNow` waits until the requests answered reach its own. Once closing is asked for it
drains instead: pending tasks until none are left, a bounded number of rounds of the retry
lane, and then, with the flusher closed, one attempt for each task marked during the drain;
tasks still failing are counted as dropped.
-/
namespace Stowage

/-- How a run of a task ended. -/
inductive TaskEnd where
  | finished (result : Outcome Unit)
  | panicked

/-- The world a flusher lives in. -/
structure FlushHost (σ κ τ : Type) where
  /-- The flusher. -/
  flusher : σ → Flusher κ τ
  /-- Put the flusher back. -/
  update : σ → Flusher κ τ → σ
  /-- Run one task: the new world, the task as it is after the run, and how it ended. -/
  run : σ → τ → σ × τ × TaskEnd

namespace FlushHost

variable {σ κ τ : Type} [BEq κ]

/-- Change the flusher. -/
def modify (h : FlushHost σ κ τ) (s : σ) (g : Flusher κ τ → Flusher κ τ) : σ :=
  h.update s (g (h.flusher s))

/-- Run one task and settle it; `false` when it panicked, which leaves the worker dead. -/
def execute (h : FlushHost σ κ τ) (s : σ) (k : κ) (t : τ) (attempts : Nat) : σ × Bool :=
  match h.run s t with
  | (s, t, .finished r) => (h.modify s fun f => f.settle k t attempts r, true)
  | (s, _, .panicked) => (h.modify s fun f => { f with worker := .dead }, false)

/-- Run a batch of first attempts in order, stopping at a panic. -/
def runBatch (h : FlushHost σ κ τ) (s : σ) : List (κ × τ) → σ × Bool
  | [] => (s, true)
  | (k, t) :: rest =>
    match h.execute s k t 0 with
    | (s, true) => h.runBatch s rest
    | (s, false) => (s, false)

/-- Run retries in order, counting each, stopping at a panic. -/
def runRetries (h : FlushHost σ κ τ) (s : σ) : List (κ × Retry τ) → σ × Bool
  | [] => (s, true)
  | (k, r) :: rest =>
    let s := h.modify s fun f => f.count fun st => { st with retried := st.retried + 1 }
    match h.execute s k r.task r.attempts with
    | (s, true) => h.runRetries s rest
    | (s, false) => (s, false)

/-- One cycle at time `now`, which answers the requests it took when it ends; `false` when a
task panicked. -/
def cycle (h : FlushHost σ κ τ) (s : σ) (now : Nat) : σ × Bool :=
  let (f, batch, retries) := (h.flusher s).startCycle now
  match h.runBatch (h.update s f) batch with
  | (s, true) =>
    match h.runRetries s retries with
    | (s, true) => (h.modify s fun f => { f with completed := f.started }, true)
    | (s, false) => (s, false)
  | (s, false) => (s, false)

/-- Run pending tasks until none are left; at most `fuel` batches. -/
def drainPending (h : FlushHost σ κ τ) (s : σ) : Nat → σ × Bool
  | 0 => (s, true)
  | fuel + 1 =>
    let f := h.flusher s
    if f.pending.isEmpty then (s, true)
    else
      let batch := f.pending.toList
      match h.runBatch (h.update s { f with pending := KeyedQueue.empty }) batch with
      | (s, true) => h.drainPending s fuel
      | (s, false) => (s, false)

/-- Up to `rounds` rounds of the retry lane, stopping when it is empty. -/
def drainRetries (h : FlushHost σ κ τ) (s : σ) : Nat → σ × Bool
  | 0 => (s, true)
  | rounds + 1 =>
    let f := h.flusher s
    if f.retry.isEmpty then (s, true)
    else
      match h.runRetries (h.update s { f with retry := KeyedQueue.empty }) f.retry.toList with
      | (s, true) => h.drainRetries s rounds
      | (s, false) => (s, false)

/-- Last attempts of tasks marked during the drain: results are not counted. -/
def runLate (h : FlushHost σ κ τ) (s : σ) : List τ → σ × Bool
  | [] => (s, true)
  | t :: rest =>
    match h.run s t with
    | (s, _, .finished _) => h.runLate s rest
    | (s, _, .panicked) => (h.modify s fun f => { f with worker := .dead }, false)

/-- The drain that ends the worker; `fuel` bounds the pending passes. -/
def drain (h : FlushHost σ κ τ) (s : σ) (fuel : Nat) : σ :=
  match h.drainPending s fuel with
  | (s, false) => s
  | (s, true) =>
    match h.drainRetries s (h.flusher s).options.drainAttempts with
    | (s, false) => s
    | (s, true) =>
      let f := h.flusher s
      let late := f.pending.toList.map (·.2)
      let abandoned := f.retry.size
      let s := h.update s
        { f with pending := KeyedQueue.empty, closed := true, completed := f.requested }
      match h.runLate s late with
      | (s, false) => s
      | (s, true) =>
        h.modify s fun f =>
          { (f.count fun st => { st with dropped := st.dropped + abandoned }) with worker := .stopped }

/-- Let the worker run at time `now` until it has no reason to wake: cycles, or the drain
once closing was asked for. At most `fuel` cycles. -/
def work (h : FlushHost σ κ τ) (s : σ) (now : Nat) : Nat → σ
  | 0 => s
  | fuel + 1 =>
    let f := h.flusher s
    if f.worker != .running then s
    else if f.shutdown then h.drain s (fuel + 1)
    else if f.due now then
      match h.cycle s now with
      | (s, true) => h.work s now fuel
      | (s, false) => s
    else s

/-- Cycles the worker may run in one turn. -/
def turnFuel : Nat := 10000

/-- Ask for a flush and let the worker run until it has no reason to wake; nothing once
closed. The caller waits for the requests answered to reach its own. -/
def flushNow (h : FlushHost σ κ τ) (s : σ) (now : Nat) : σ :=
  if (h.flusher s).closed then s
  else h.work (h.modify s Flusher.request) now turnFuel

/-- Ask the flusher to close and let the worker drain; a second call does nothing. -/
def close (h : FlushHost σ κ τ) (s : σ) (now : Nat) : σ :=
  if (h.flusher s).shutdown then s
  else h.work (h.modify s fun f => { f with shutdown := true }) now turnFuel

/-- Let time pass from `now` for `ms`, waking the worker at each timer on the way; answers the
world at the end. At most one wake per millisecond when timers keep falling due. -/
def sleep (h : FlushHost σ κ τ) (s : σ) (now ms : Nat) : σ :=
  go s now (ms + 1)
where
  go (s : σ) (t : Nat) : Nat → σ
    | 0 => s
    | fuel + 1 =>
      let f := h.flusher s
      if f.worker != .running then s
      else
        let d := max f.deadline t
        if d > now + ms then s
        else
          let s := h.work s d turnFuel
          let f := h.flusher s
          if f.worker != .running || f.deadline > d then go s d fuel else go s (d + 1) fuel

end FlushHost

end Stowage
