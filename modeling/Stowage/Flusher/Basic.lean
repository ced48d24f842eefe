import Stowage.Queue
import Stowage.Fault
import Stowage.Settings.Basic
/-!
Write-behind queues: the state of a flusher.

Tasks are marked into a pending queue keyed by what they write, so a newer task replaces a
queued one of the same key and keeps its place. One worker runs them in batches. A task that
fails with a transient error moves to the retry lane, which runs on periodic cycles, on flush
requests and while closing; any other failure drops it. A closed flusher runs a marked task
at once, for its caller.

This module holds the state and the operations that need no task to run; the worker's cycles,
which run tasks through their host, are in `Stowage.Flusher.Worker`.
-/
namespace Stowage

/-- Tuning of a flusher. Times are in milliseconds. -/
structure FlusherOptions where
  /-- Wait after the oldest pending task before a batch. -/
  delay : Nat := 1000
  /-- Pending tasks that wake the worker at once. -/
  maxPending : Nat := 1000
  /-- Period of the cycle that also runs the retry lane. -/
  period : Nat := 10000
  /-- Failed attempts before a task is dropped; `0` retries forever. -/
  retryLimit : Nat := 0
  /-- Retry rounds while closing. -/
  drainAttempts : Nat := 3
  /-- Pause after an exhausted resource. -/
  oomBackoff : Nat := 500
  /-- Ignore marks of keys whose task is running. -/
  dedupInFlight : Bool := false
  deriving Inhabited

/-- The options of a node's settings; the pending limit is at least one. -/
def FlusherOptions.ofSettings (s : FlusherSettings) : FlusherOptions :=
  { delay := s.delayMs, maxPending := max s.maxPending 1, period := s.periodMs,
    retryLimit := s.retryLimit, drainAttempts := s.drainAttempts, oomBackoff := s.oomBackoffMs }

/-- Options of a background reload queue: reloads start at once, a failed reload is not
tried again, and a reload is not queued while one of its key runs. -/
def FlusherOptions.reloads : FlusherOptions :=
  { delay := 0, maxPending := Nat.pow 2 64 - 1, period := 60000, retryLimit := 1, drainAttempts := 0,
    oomBackoff := 500, dedupInFlight := true }

/-- Counters of a flusher. -/
structure FlusherStats where
  /-- Tasks accepted by a mark. -/
  marked : Nat := 0
  /-- Marks folded into a queued or running task. -/
  coalesced : Nat := 0
  /-- Successful runs. -/
  executed : Nat := 0
  /-- Failed runs. -/
  failed : Nat := 0
  /-- Runs from the retry lane. -/
  retried : Nat := 0
  /-- Tasks given up on. -/
  dropped : Nat := 0
  deriving Inhabited

/-- A task waiting for another attempt, with the failed attempts so far. -/
structure Retry (τ : Type) where
  task : τ
  attempts : Nat

/-- Whether the worker is still there to run cycles. -/
inductive WorkerState where
  | running
  /-- Drained and stopped. -/
  | stopped
  /-- A task panicked and took the worker down. -/
  | dead
  deriving DecidableEq, Repr, Inhabited

/-- How a marked task was taken. -/
inductive Admission where
  /-- Queued, or folded into a task of the same key. -/
  | queued
  /-- The flusher is closed: the caller runs the task now. -/
  | runNow
  deriving DecidableEq, Repr

/-- A write-behind flusher over keys `κ` and tasks `τ`. -/
structure Flusher (κ τ : Type) where
  options : FlusherOptions
  pending : KeyedQueue κ τ
  retry : KeyedQueue κ (Retry τ)
  /-- Keys of the batch now running, kept only when marks of running keys are ignored. -/
  inFlight : List κ
  stats : FlusherStats
  /-- Flush requests made so far. -/
  requested : Nat
  /-- Requests taken by the last cycle to start: a request is answered by a cycle that starts
  after it. -/
  started : Nat
  /-- Requests answered: those of the last cycle to end. -/
  completed : Nat
  /-- Closing was asked for. -/
  shutdown : Bool
  /-- The drain is over: marks run at once. -/
  closed : Bool
  worker : WorkerState
  /-- When the next periodic cycle is due. -/
  nextPeriod : Nat

namespace Flusher

variable {κ τ : Type} [BEq κ]

/-- A new flusher whose worker started at time `now`. -/
def create (options : FlusherOptions) (now : Nat) : Flusher κ τ :=
  ⟨options, KeyedQueue.empty, KeyedQueue.empty, [], {}, 0, 0, 0, false, false, .running,
    now + options.period⟩

instance : Inhabited (Flusher κ τ) := ⟨create {} 0⟩

/-- Change the counters. -/
def count (f : Flusher κ τ) (g : FlusherStats → FlusherStats) : Flusher κ τ :=
  { f with stats := g f.stats }

/-- Take a task at time `now`: queued, replacing a queued task of its key, unless its key is
running and such marks are ignored; a closed flusher leaves it to the caller to run. A queued
task supersedes a failed one waiting for retry. -/
def enqueue (f : Flusher κ τ) (k : κ) (t : τ) (now : Nat) : Flusher κ τ × Admission :=
  if f.closed then (f, .runNow)
  else if f.options.dedupInFlight && f.inFlight.contains k then
    (f.count fun s => { s with coalesced := s.coalesced + 1 }, .queued)
  else
    let f := f.count fun s => { s with marked := s.marked + 1 }
    let (pending, fresh) := f.pending.push k t now
    let f := { f with retry := (f.retry.remove k).1, pending }
    (if fresh then f else f.count fun s => { s with coalesced := s.coalesced + 1 }, .queued)

/-- Ask for a flush: one more request, which the next cycle to start takes. -/
def request (f : Flusher κ τ) : Flusher κ τ := { f with requested := f.requested + 1 }

/-- Drop any queued or retrying task of a key; whether there was one. -/
def cancel (f : Flusher κ τ) (k : κ) : Flusher κ τ × Bool :=
  let (pending, p) := f.pending.remove k
  let (retry, r) := f.retry.remove k
  ({ f with pending, retry }, p.isSome || r.isSome)

/-- Whether a task of the key is queued or running. -/
def isScheduled (f : Flusher κ τ) (k : κ) : Bool := f.pending.contains k || f.inFlight.contains k

/-- Bookkeeping after a run: a success counts; a failure counts and is dropped when it is not
transient or has used up its attempts, is let go when a newer task of its key is queued, and
otherwise waits in the retry lane. -/
def settle (f : Flusher κ τ) (k : κ) (t : τ) (attempts : Nat) (result : Outcome Unit) :
    Flusher κ τ :=
  let f := { f with inFlight := f.inFlight.erase k }
  match result with
  | .ok () => f.count fun s => { s with executed := s.executed + 1 }
  | .error e =>
    let f := f.count fun s => { s with failed := s.failed + 1 }
    let attempts := attempts + 1
    let limit := f.options.retryLimit
    if !e.isRetryable || (limit > 0 && attempts ≥ limit) then
      f.count fun s => { s with dropped := s.dropped + 1 }
    else if f.pending.contains k then f
    else { f with retry := (f.retry.push k ⟨t, attempts⟩ 0).1 }

/-- Whether the worker has a reason to run a cycle at time `now`. -/
def due (f : Flusher κ τ) (now : Nat) : Bool :=
  decide (f.started < f.requested) || f.pending.size ≥ f.options.maxPending ||
    (f.pending.oldest?.any fun since => since + f.options.delay ≤ now) || f.nextPeriod ≤ now

/-- The next time a timer wakes the worker. -/
def deadline (f : Flusher κ τ) : Nat :=
  match f.pending.oldest? with
  | some since => min (since + f.options.delay) f.nextPeriod
  | none => f.nextPeriod

/-- Start a cycle at time `now`: it takes every request made so far, the whole pending queue,
and the retry lane on a periodic cycle or when a request was waiting. -/
def startCycle (f : Flusher κ τ) (now : Nat) :
    Flusher κ τ × List (κ × τ) × List (κ × Retry τ) :=
  let periodic := f.nextPeriod ≤ now
  let requested := decide (f.started < f.requested)
  let next := if periodic then now + f.options.period else f.nextPeriod
  let f := { f with started := f.requested, nextPeriod := next }
  let batch := f.pending.toList
  let running := if f.options.dedupInFlight then f.inFlight ++ batch.map (·.1) else f.inFlight
  let f := { f with pending := KeyedQueue.empty, inFlight := running }
  if periodic || requested then
    ({ f with retry := KeyedQueue.empty }, batch, f.retry.toList)
  else (f, batch, [])

end Flusher

end Stowage
