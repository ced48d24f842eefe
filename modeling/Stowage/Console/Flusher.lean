import Stowage.Console.Basics
import Stowage.Flusher.Worker
/-!
Console scenarios on a flusher of scripted tasks.

A scripted task has a key, a name, a result for each attempt (the last one repeats) and tasks
it marks during given attempts. Every run appends `name:result` to a log, and every mark it
makes appends `name:mark key`, or `name:mark key failed` when the flusher was closed and the
marked task, run at once, failed. A task can also take the only handle of the flusher and
drop it on the worker, which closes the flusher from within; later marks of tasks find no
flusher and are skipped, and the scenario then only lets time pass.

Time moves only by `sleep`; the worker runs after every step, at the time of the step.
-/
namespace Stowage.Console

open Stowage.Json

inductive TaskScript where
  | mk (key name : String) (results : List String) (marks : List (Nat × TaskScript))
    (takesFlusher : Bool)
  deriving Inhabited

def TaskScript.key : TaskScript → String
  | .mk key .. => key

structure ScriptedTask where
  script : TaskScript
  runs : Nat
  deriving Inhabited

structure FlushBench where
  flusher : Flusher String ScriptedTask
  /-- Log entries, newest first. -/
  log : List String
  now : Nat
  /-- A task took the flusher's only handle. -/
  handedOver : Bool

def FlushBench.note (b : FlushBench) (entry : String) : FlushBench := { b with log := entry :: b.log }

/-- The failure a scripted result names; `none` for success. A scripted conflict is always
reported on key `k`, between the lineages `a+1` and `b+2`. -/
def scriptedFault (result : String) : Option Fault :=
  match result with
  | "ok" => none
  | "backend" => some (.backend "scripted")
  | "exhausted" => some (.resourceExhausted "scripted")
  | "timeout" => some .timeout
  | "invalid" => some (.invalidArgument "scripted")
  | "conflict" => some (.versionConflict "k" "a+1" "b+2")
  | "closed" => some .closed
  | _ => some (.internal "scripted")

def resultAt (results : List String) (n : Nat) : String :=
  results[n]?.getD (results.getLast?.getD "ok")

mutual

/-- Run attempt `n` of a script: take the flusher if the script says so, make the marks of this
attempt, then produce the result. -/
def runScript (b : FlushBench) : TaskScript → Nat → FlushBench × TaskEnd
  | .mk _ name results marks takes, n =>
    let b := if takes && n == 0 then
        ({ b with handedOver := true, flusher := { b.flusher with shutdown := true } }).note
          (name ++ ":dropped flusher")
      else b
    match runMarks b name n marks with
    | (b, false) => (b, .panicked)
    | (b, true) =>
      let result := resultAt results n
      let b := b.note (name ++ ":" ++ result)
      if result = "panic" then (b, .panicked)
      else match scriptedFault result with
        | none => (b, .finished (.ok ()))
        | some f => (b, .finished (.error f))

def runMarks (b : FlushBench) (name : String) (n : Nat) :
    List (Nat × TaskScript) → FlushBench × Bool
  | [] => (b, true)
  | (attempt, sub) :: rest =>
    if attempt != n || b.handedOver then runMarks b name n rest
    else
      match b.flusher.enqueue sub.key ⟨sub, 0⟩ b.now with
      | (f, .queued) => runMarks ({ b with flusher := f }.note (name ++ ":mark " ++ sub.key)) name n rest
      | (_, .runNow) =>
        match runScript b sub 0 with
        | (b, .panicked) => (b, false)
        | (b, .finished r) =>
          let suffix := match r with
            | .ok () => ""
            | .error _ => " failed"
          runMarks (b.note (name ++ ":mark " ++ sub.key ++ suffix)) name n rest

end

def benchHost : FlushHost FlushBench String ScriptedTask where
  flusher b := b.flusher
  update b f := { b with flusher := f }
  run b t :=
    let (b, e) := runScript b t.script t.runs
    (b, { t with runs := t.runs + 1 }, e)

/-- Read the script of the task with key `key`; `depth` bounds the nesting of marks. A name
that is not a string falls back to the key, and a mark whose task has no key is skipped. -/
def readScript (v : Value) (key : String) (takes : Bool) : Nat → Decode TaskScript
  | 0 => .error "marks"
  | depth + 1 => do
    let name := (strLoose v "name").getD key
    let results ← match v.field? "results" with
      | none => pure ["ok"]
      | some (.arr xs) => xs.mapM fun x => match x with
        | .str s => pure s
        | _ => throw "results"
      | some _ => throw "results"
    let marks ← match v.field? "marks" with
      | none => pure []
      | some (.arr xs) => xs.filterMapM fun m => do
        let attempt ← u64 m "attempt"
        match (m.field? "task").bind fun task => (strLoose task "key").map (task, ·) with
        | some (task, k) => return some (attempt, ← readScript task k false depth)
        | none => return none
      | some _ => throw "marks"
    return .mk key name results marks takes

def scriptDepth : Nat := 128

def FlushBench.settle (b : FlushBench) : FlushBench := benchHost.work b b.now FlushHost.turnFuel

def FlushBench.mark (b : FlushBench) (script : TaskScript) : FlushBench × Value :=
  match b.flusher.enqueue script.key ⟨script, 0⟩ b.now with
  | (f, .queued) => ({ b with flusher := f }.settle, resultAnswer .null)
  | (_, .runNow) =>
    match runScript b script 0 with
    | (b, .finished (.error f)) => (b.settle, faultAnswer f)
    | (b, _) => (b.settle, resultAnswer .null)

def flusherStatsView (s : FlusherStats) : Value :=
  Value.ofFields [("marked", .ofNat s.marked), ("coalesced", .ofNat s.coalesced),
    ("executed", .ofNat s.executed), ("failed", .ofNat s.failed), ("retried", .ofNat s.retried),
    ("dropped", .ofNat s.dropped)]

def flushStep (b : FlushBench) (step : Value) : FlushBench × Value :=
  let run : Except Value (FlushBench × Value) := do
    let what ← lift (str step "do")
    if b.handedOver && what != "sleep" then
      throw (badInput (if what = "hand_over" then "flusher already handed over"
        else "flusher handed over"))
    match what with
    | "mark" => return b.mark (← lift (readScript step (← lift (str step "key")) false scriptDepth))
    | "hand_over" =>
      let task := (present? step "task").getD (.obj [])
      let (b, _) := b.mark (← lift (readScript task (← lift (str task "key")) true scriptDepth))
      return (b, resultAnswer (Value.ofFields [("taken", .bool true)]))
    | "cancel" =>
      let (f, had) := b.flusher.cancel (← lift (str step "key"))
      return ({ b with flusher := f }.settle, resultAnswer (.bool had))
    | "is_scheduled" =>
      return (b, resultAnswer (.bool (b.flusher.isScheduled (← lift (str step "key")))))
    | "flush_now" => return (benchHost.flushNow b b.now, resultAnswer .null)
    | "pending_len" => return (b, resultAnswer (.ofNat b.flusher.pending.size))
    | "retry_len" => return (b, resultAnswer (.ofNat b.flusher.retry.size))
    | "is_closed" => return (b, resultAnswer (.bool b.flusher.closed))
    | "close" => return (benchHost.close b b.now, resultAnswer .null)
    | "stats" => return (b, resultAnswer (flusherStatsView b.flusher.stats))
    | "sleep" =>
      let ms ← lift (u64 step "ms")
      if b.handedOver then return ({ b with now := b.now + ms }, resultAnswer .null)
      let b := benchHost.sleep b b.now ms
      return ({ b with now := b.now + ms }.settle, resultAnswer .null)
    | other => throw (badInput ("unknown flusher step " ++ other))
  match run with
  | .ok res => res
  | .error v => (b, v)

def withRan (before : FlushBench) (after : FlushBench) (answer : Value) : Value :=
  let fresh := (after.log.take (after.log.length - before.log.length)).reverse
  match answer with
  | .obj fields => .obj (Value.insertField "ran" (.arr (fresh.map .str)) fields)
  | other => other

def readFlusherOptions (v : Value) : Decode FlusherOptions := do
  return {
    delay := ← u64Or v "delay_ms" 3600000, maxPending := ← u64Or v "max_pending" 1000000,
    period := ← u64Or v "period_ms" 3600000, retryLimit := ← u32Or v "retry_limit" 0,
    drainAttempts := ← u32Or v "drain_attempts" 3, oomBackoff := ← u64Or v "oom_backoff_ms" 0,
    dedupInFlight := ← boolOr v "dedup_in_flight" false }

/-- `flusher`: steps on one flusher, then the log of the final close. -/
def flusherSteps (cmd : Value) : Decode Value := do
  let options ← readFlusherOptions ((present? cmd "options").getD (.obj []))
  let quiet ← boolOr cmd "quiet" false
  let start : FlushBench := ⟨Flusher.create options 0, [], 0, false⟩
  let (b, answers) := runSteps start (← arr cmd "steps") fun b step =>
    let (b', answer) := flushStep b step
    (b', if quiet then answer else withRan b b' answer)
  let closed := if b.handedOver then b else benchHost.close b b.now
  let atDrop := if quiet then closed.log.reverse
    else (closed.log.take (closed.log.length - b.log.length)).reverse
  return Value.ofFields [("steps", .arr answers), ("ran_at_drop", .arr (atDrop.map .str))]

end Stowage.Console

namespace Stowage.Console

open Stowage.Json

structure ReloadScript where
  name : String
  fails : Bool
  runs : Nat

structure ReloadBench where
  queue : Flusher Identity ReloadScript
  /-- Log entries, newest first. -/
  log : List String
  /-- Log entries already reported. -/
  reported : Nat

def runReload (b : ReloadBench) (t : ReloadScript) : ReloadBench × ReloadScript × TaskEnd :=
  let b := { b with log := (t.name ++ "#" ++ toString t.runs) :: b.log }
  let r : Outcome Unit := if t.fails then .error (.backend "reload failed") else .ok ()
  (b, { t with runs := t.runs + 1 }, .finished r)

def reloadHost : FlushHost ReloadBench Identity ReloadScript where
  flusher b := b.queue
  update b f := { b with queue := f }
  run := runReload

def ReloadBench.report (b : ReloadBench) : ReloadBench × Value :=
  let fresh := (b.log.take (b.log.length - b.reported)).reverse
  ({ b with reported := b.log.length }, .arr (fresh.map .str))

def reloadStep (b : ReloadBench) (step : Value) : ReloadBench × Value :=
  let run : Except Value (ReloadBench × Value) := do
    match ← lift (str step "do") with
    | "schedule" =>
      let key ← identityField step "key"
      let t : ReloadScript := ⟨(strLoose step "name").getD "task", ← lift (boolOr step "fail" false), 0⟩
      match b.queue.enqueue key t 0 with
      | (q, .queued) => return (reloadHost.work { b with queue := q } 0 FlushHost.turnFuel, resultAnswer .null)
      | (_, .runNow) =>
        match runReload b t with
        | (b, _, .finished (.error f)) => return (b, faultAnswer f)
        | (b, _, _) => return (b, resultAnswer .null)
    | "drain" =>
      let (b, ran) := (reloadHost.flushNow b 0).report
      return (b, resultAnswer (Value.ofFields [("ran", ran)]))
    | "close" =>
      let (b, ran) := (reloadHost.close b 0).report
      return (b, resultAnswer (Value.ofFields [("ran", ran)]))
    | "is_scheduled" =>
      let key ← identityField step "key"
      return (b, resultAnswer (.bool (b.queue.isScheduled key)))
    | "pending_len" => return (b, resultAnswer (.ofNat b.queue.pending.size))
    | "debug" =>
      let key ← identityField step "key"
      return (b, resultAnswer (.str ("ReloadTask \x7b key: " ++ key.debugText ++ " \x7d")))
    | other => throw (badInput ("unknown loader step " ++ other))
  match run with
  | .ok res => res
  | .error v => (b, v)

/-- `delay_loader`: steps on one reload queue, then the log of the final close. -/
def reloadSteps (cmd : Value) : Decode Value := do
  let _ ← boolOr cmd "shared" false
  let start : ReloadBench := ⟨Flusher.create FlusherOptions.reloads 0, [], 0⟩
  let (b, answers) := runSteps start (← arr cmd "steps") reloadStep
  let (_, ran) := (reloadHost.close b 0).report
  return Value.ofFields [("steps", .arr answers), ("ran_at_end", ran)]

end Stowage.Console
