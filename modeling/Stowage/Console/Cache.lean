import Stowage.Console.Basics
import Stowage.Cache.Basic
/-!
Console scenarios on the identity cache.

The scenario keeps documents (a body and a deleted flag, numbered from one in the order they
are made) and named handles, which stand for the application holding a document. A document
that a handle names is held, which is what eviction order and the deleted notice look at.
Time moves only by `sleep`.
-/
namespace Stowage.Console

open Stowage.Json
open Stowage.Version

structure Doc where
  body : String
  deleted : Bool := false

structure DocBench where
  cache : Cache
  docs : List (Nat × Doc)
  made : Nat
  handles : List (String × Nat)
  now : Nat

namespace DocBench

def make (b : DocBench) (body : String) : DocBench × Nat :=
  ({ b with docs := b.docs ++ [(b.made + 1, { body })], made := b.made + 1 }, b.made + 1)

def held (b : DocBench) (inst : Nat) : Bool := b.handles.any (·.2 == inst)

def tell (b : DocBench) (insts : List Nat) : DocBench :=
  { b with docs := b.docs.map fun p => if insts.contains p.1 then (p.1, { p.2 with deleted := true }) else p }

def view (b : DocBench) (inst : Nat) : Value :=
  let d := (b.docs.lookup inst).getD { body := "" }
  Value.ofFields [("body", .str d.body), ("inst", .ofNat inst), ("deleted", .bool d.deleted)]

def hold (b : DocBench) (h : String) (inst : Nat) : DocBench :=
  { b with handles := (h, inst) :: b.handles.filter (·.1 != h) }

def handle (b : DocBench) (h : String) : Except Value Nat :=
  match b.handles.lookup h with
  | some inst => .ok inst
  | none => .error (badInput ("no handle " ++ h))

def withCache (b : DocBench) (r : Cache × List Nat) : DocBench := { b with cache := r.1 }.tell r.2

end DocBench

/-- A scripted lineage, read loosely: the failure the script describes when it names an
`error`; else the lineage `version` when that is a string; else `append` (a node) written on
`base`, with at most `max_run` writes of one node in a row (five when not given). A script that
fits none of these fails with a timeout. -/
def readLineage (spec : Value) (base : Lineage) : Outcome Lineage :=
  if (spec.field? "error").isSome then .error (faultOfParts spec)
  else match strLoose spec "version", strLoose spec "append" with
    | some v, _ => .ok (Lineage.parse v)
    | none, some node =>
      match present? spec "max_run" with
      | none => .ok (base.append node false 5)
      | some m =>
        match m.asU64? with
        | some n => .ok (base.append node false n)
        | none => .error .timeout
    | none, none => .error .timeout

inductive DocLoad where
  | absent
  | found (body : String) (version : Lineage)
  | failed (f : Fault)

/-- Read a load script loosely: a failure when it names an `error`, else a document whose
body and lineage are empty unless given as strings. -/
def readDocLoad (step : Value) : DocLoad :=
  match present? step "load" with
  | none => .absent
  | some spec =>
    if (spec.field? "error").isSome then .failed (faultOfParts spec)
    else .found ((strLoose spec "body").getD "") (Lineage.parse ((strLoose spec "version").getD ""))

def DocBench.mark (b : DocBench) (id : Identity) (inst : Nat) (provision : Option Value) :
    Except Value (DocBench × Outcome (Lineage × Bool × Bool)) := do
  match b.cache.markExisting id inst b.now with
  | some (.ok (c, previous)) => return ({ b with cache := c }, .ok (previous, false, false))
  | some (.error f) => return (b, .error f)
  | none =>
    if b.cache.wasEvicted id inst then return (b, .error (Cache.evictedFault id))
    let made : Outcome Lineage ← match provision with
      | none => pure (.error (.internal "no provision given"))
      | some spec => pure (readLineage spec Lineage.empty)
    match made with
    | .error f => return (b, .error f)
    | .ok v =>
      let b := b.withCache (b.cache.insert id inst v .clean b.now b.held)
      return (b, .ok (v, true, true))

def docStep (b : DocBench) (step : Value) : DocBench × Value :=
  let run : Except Value (DocBench × Value) := do
    match ← lift (str step "do") with
    | "new" =>
      let (b, inst) := b.make (← lift (str step "body"))
      match str step "h" with
      | .ok h =>
        let b := b.hold h inst
        return (b, resultAnswer (b.view inst))
      | .error e => return (b, badInput e)
    | "get" =>
      let id ← identityField step "id"
      let load := readDocLoad step
      let h := strLoose step "h"
      let keep (b : DocBench) (inst : Nat) : DocBench := match h with
        | some h => b.hold h inst
        | none => b
      match b.cache.hit? id b.now with
      | some (c, inst) =>
        let b := keep { b with cache := c } inst
        return (b, resultAnswer (Value.ofFields [("loaded", .bool false), ("doc", b.view inst)]))
      | none =>
        let b := { b with cache := b.cache.startLoad }
        match load with
        | .failed f => return (b, faultAnswer f)
        | .absent =>
          let b := b.withCache (b.cache.discardExpired id b.held)
          return (b, resultAnswer (Value.ofFields [("loaded", .bool true), ("doc", .null)]))
        | .found body version =>
          let (b, inst) := b.make body
          let b := b.withCache (b.cache.install id inst version b.now b.held)
          let b := keep b inst
          return (b, resultAnswer (Value.ofFields [("loaded", .bool true), ("doc", b.view inst)]))
    | "mark" =>
      let id ← identityField step "id"
      let inst ← b.handle (← lift (str step "h"))
      let (b, r) ← b.mark id inst (present? step "provision")
      return (b, outcomeAnswer (r.map fun (previous, created, provisioned) =>
        Value.ofFields [("previous", .str previous.render), ("created", .bool created),
          ("provisioned", .bool provisioned)]))
    | "flush" =>
      let id ← identityField step "id"
      let spec ← lift (need step "result")
      match b.cache.beginFlush id with
      | none =>
        return (b, resultAnswer (Value.ofFields [("written", .bool false), ("writer_saw", .null),
          ("remark_error", .null)]))
      | some (c, ticket) =>
        let b := { b with cache := c }
        let (b, remarkError) ← match strLoose step "remark" with
          | some h =>
            let inst ← b.handle h
            let (b, r) ← b.mark id inst none
            pure (b, match r with
              | .ok _ => Value.null
              | .error f => faultAnswer f)
          | none => pure (b, Value.null)
        let b ← match strLoose step "evict" with
          | some "remove" =>
            let (c, inst) := b.cache.detachEntry id
            pure ({ b with cache := c }.tell inst.toList)
          | some "discard" => pure { b with cache := (b.cache.detachEntry id).1 }
          | _ => pure b
        let result := readLineage spec ticket.previous
        let (c, r) := b.cache.finishFlush id ticket result
        let b := { b with cache := c }
        let saw := Value.str ticket.previous.render
        match r with
        | .ok written =>
          return (b, resultAnswer (Value.ofFields [("written", .bool written), ("writer_saw", saw),
            ("remark_error", remarkError)]))
        | .error f =>
          return (b, resultAnswer (Value.ofFields [("failed", Value.ofFields
            [("error", .str f.kindName), ("message", .str f.message), ("writer_saw", saw),
              ("remark_error", remarkError)])]))
    | "remove" =>
      let id ← identityField step "id"
      let (c, inst) := b.cache.detachEntry id
      let b := { b with cache := c }.tell inst.toList
      return (b, resultAnswer ((inst.map b.view).getD .null))
    | "discard" =>
      let id ← identityField step "id"
      let (c, inst) := b.cache.detachEntry id
      let b := { b with cache := c }
      return (b, resultAnswer ((inst.map b.view).getD .null))
    | "expire" =>
      let id ← identityField step "id"
      let (c, ok) := b.cache.expire id
      return ({ b with cache := c }, resultAnswer (.bool ok))
    | "refresh" =>
      let id ← identityField step "id"
      let (b, peer) := b.make (← lift (str step "body"))
      let read : Decode (Lineage × Bool) := do
        return (Lineage.parse (← str step "version"), ← boolOr step "accept" false)
      match read, b.cache.offer id with
      | .error e, _ => return (b, badInput e)
      | .ok _, .error r => return (b, resultAnswer (.str r.name))
      | .ok (version, accept), .ok _ =>
        if accept then
          return ({ b with cache := b.cache.refresh id version none },
            resultAnswer (.str Refresh.accepted.name))
        else
          return ({ b with cache := b.cache.refresh id version (some peer) },
            resultAnswer (.str Refresh.replaced.name))
    | "peek" =>
      let id ← identityField step "id"
      return (b, resultAnswer (((b.cache.peek id).map b.view).getD .null))
    | "version" =>
      let id ← identityField step "id"
      return (b, resultAnswer (Value.ofOption ((b.cache.version? id).map Lineage.render)))
    | "dirty_state" =>
      let id ← identityField step "id"
      return (b, resultAnswer (Value.ofOption ((b.cache.writeState? id).map WriteState.name)))
    | "is_dirty" =>
      let id ← identityField step "id"
      return (b, resultAnswer (.bool (b.cache.isDirty id)))
    | "contains" =>
      let id ← identityField step "id"
      return (b, resultAnswer (.bool (b.cache.contains id)))
    | "len" =>
      return (b, resultAnswer (Value.ofFields [("len", .ofNat b.cache.size),
        ("is_empty", .bool (b.cache.size == 0)), ("capacity", .ofNat b.cache.capacity)]))
    | "sweep" =>
      let (c, n, told) := b.cache.sweep b.now b.held
      return ({ b with cache := c }.tell told, resultAnswer (.ofNat n))
    | "stats" =>
      let s := b.cache.stats
      return (b, resultAnswer (Value.ofFields [("hits", .ofNat s.hits), ("misses", .ofNat s.misses),
        ("loads", .ofNat s.loads), ("evictions", .ofNat s.evictions),
        ("writebacks", .ofNat s.writebacks), ("dirty_count", .ofNat s.dirtyCount),
        ("hit_ratio", .ofFloat s.hitRatio)]))
    | "drop" =>
      let h ← lift (str step "h")
      let had := (b.handles.lookup h).isSome
      return ({ b with handles := b.handles.filter (·.1 != h) }, resultAnswer (.bool had))
    | "held" =>
      let inst ← b.handle (← lift (str step "h"))
      return (b, resultAnswer (b.view inst))
    | "same" =>
      let x ← b.handle (← lift (str step "h"))
      let y ← b.handle (← lift (str step "h2"))
      return (b, resultAnswer (.bool (x == y)))
    | "sleep" =>
      return ({ b with now := b.now + (← lift (u64 step "ms")) }, resultAnswer .null)
    | other => throw (badInput ("unknown cache step " ++ other))
  match run with
  | .ok res => res
  | .error v => (b, v)

/-- `cache`: steps on one cache of documents. -/
def cacheSteps (cmd : Value) : Decode Value := do
  let capacity ← u64Or cmd "capacity" 10
  let idle ← u64Or cmd "idle_timeout_ms" 0
  let cache := Cache.empty capacity (if idle = 0 then none else some idle)
  let start : DocBench := ⟨cache, [], 0, [], 0⟩
  return .arr (runSteps start (← arr cmd "steps") docStep).2

end Stowage.Console
