import Stowage.Console.Basics
import Stowage.Remote.Proxy
/-!
Console scenarios on proxies of remote JSON values.

A scenario holds a registry over a source kept in memory, a clock that moves only when told to,
and a set of offline copies that the proxies fall back on when asked to. After every step the
shared loader is drained, so a background reload asked for by a read has run before the next
step. A write may run steps of its own while the source stores it, with the write pending.
-/
namespace Stowage.Console

open Stowage.Json
open Stowage.Version
open Stowage.Remote

def remoteView (v : RemoteValue Value) : Value :=
  Value.ofFields [("value", v.value), ("version", .str v.version.render),
    ("owner", Value.ofOption v.owner)]

def proxyStateView (policy : ExpiryPolicy) (p : Proxy Value) : Value :=
  Value.ofFields [("id", .str p.id.render), ("value", p.value.getD .null),
    ("version", .str p.version.render), ("owner", Value.ofOption p.owner),
    ("stamp", .str p.stamp.render), ("write_pending", .bool p.isWritePending),
    ("policy", policyView policy)]

def proxyStatsView (s : ProxyStats) : Value :=
  Value.ofFields [("loads", .ofNat s.loads), ("background_reloads", .ofNat s.backgroundReloads),
    ("stale_served", .ofNat s.staleServed), ("offline_hits", .ofNat s.offlineHits),
    ("writes", .ofNat s.writes)]

def sizeView (n : Nat) : Value := Value.ofFields [("len", .ofNat n), ("is_empty", .bool (n == 0))]

def wrapSigned (x : Int) : Int := (x + Int.pow 2 63) % Int.pow 2 64 - Int.pow 2 63

def readRemoteValue (step : Value) : Except Value (RemoteValue Value) := do
  let value ← lift (need step "value")
  let version := Lineage.parse (← lift (str step "version"))
  let owner ← lift (strOpt step "owner")
  return ⟨value, version, owner⟩

def pendingStep (id : Identity) (r : Registry Value) (step : Value) :
    Except Value (Registry Value × Value) := do
  match ← lift (str step "do") with
  | "write_pending" =>
    let (r, p) := r.proxy id
    return (r, resultAnswer (.bool p.isWritePending))
  | "expire" =>
    let (r, done) := r.withProxy id fun p b => let (p, done) := p.expire; (p, b, done)
    return (r, resultAnswer (.bool done))
  | "weak_expire" =>
    let (r, done) := r.withProxy id fun p b => let (p, done) := p.weakExpire; (p, b, done)
    return (r, resultAnswer (.bool done))
  | "update_vo" =>
    let value ← lift (need step "value")
    let version := Lineage.parse (← lift (str step "version"))
    let (r, done) := r.withProxy id fun p b => p.updateValue b value version
    return (r, resultAnswer (.bool done))
  | "value" =>
    let (r, res) := r.value id
    return (r, outcomeAnswer (res.map (·.getD .null)))
  | "src_remove" =>
    let (source, old) := r.backing.source.remove id
    return (r.onSource fun _ => source, resultAnswer (.bool old.isSome))
  | "put" =>
    let v ← readRemoteValue step
    return (r.onSource (·.put id v), resultAnswer .null)
  | other => throw (badInput ("unknown proxy step " ++ other))

def pendingSteps (id : Identity) (r : Registry Value) (steps : List Value) :
    Registry Value × List Value :=
  runSteps r steps fun r step =>
    match pendingStep id r step with
    | .ok res => res
    | .error v => (r, v)

/-- A write, with the steps to run while the source stores it. A read-only source refuses the
write before storing anything, so those steps do not run. -/
def pendingWrite (r : Registry Value) (id : Identity) (value : Value) (during : List Value) :
    Registry Value × Value :=
  let (r, t) := r.beginWrite id
  let (r, heard) := if r.backing.writable then pendingSteps id r during else (r, [])
  let (r, res) := r.finishWrite id t value
  (r, resultAnswer (Value.ofFields [("during", .arr heard),
    ("written", outcomeAnswer (res.map fun v => .str v.render))]))

def proxyStepCore (r : Registry Value) (step : Value) : Except Value (Registry Value × Value) := do
  let opt {β : Type} (x : Option β) (f : β → Value) : Value := (x.map f).getD .null
  match ← lift (str step "do") with
  | "put" =>
    let v ← readRemoteValue step
    let id ← identityField step "id"
    return (r.onSource (·.put id v), resultAnswer .null)
  | "src_remove" =>
    let id ← identityField step "id"
    let (source, old) := r.backing.source.remove id
    return (r.onSource fun _ => source, resultAnswer (opt old remoteView))
  | "src_current" =>
    let id ← identityField step "id"
    return (r, resultAnswer (opt (r.backing.source.current id) remoteView))
  | "src_fail" =>
    let n ← lift (u32 step "count")
    return (r.onSource (·.failNext n), resultAnswer .null)
  | "src_loads" => return (r, resultAnswer (.ofNat r.backing.source.loads))
  | "src_store" =>
    let id ← identityField step "id"
    let value ← lift (need step "value")
    let previous := Lineage.parse (← lift (str step "previous"))
    let next := Lineage.parse (← lift (str step "next"))
    let (source, res) := r.backing.source.store id value previous next
    return (r.onSource fun _ => source, outcomeAnswer (res.map fun v => .str v.render))
  | "offline_put" =>
    let v ← readRemoteValue step
    let id ← identityField step "id"
    let (copies, old) := r.backing.copies.update id v
    return (r.onBacking ({ · with copies }), resultAnswer (opt old fun l => .str l.render))
  | "offline_get" =>
    let id ← identityField step "id"
    return (r, resultAnswer (opt (r.backing.copies.get? id) remoteView))
  | "offline_len" => return (r, resultAnswer (sizeView r.backing.copies.size))
  | "offline_clear" => return (r.onBacking ({ · with copies := .empty }), resultAnswer .null)
  | "advance" =>
    let ms ← lift (u64 step "ms")
    let clock := wrapSigned (r.backing.clock + min (ms : Int) Remote.i64Max)
    return (r.onBacking ({ · with clock }), resultAnswer (.ofInt clock))
  | "set_clock" =>
    let clock ← lift (i64 step "ms")
    return (r.onBacking ({ · with clock }), resultAnswer (.ofInt clock))
  | "value" =>
    let id ← identityField step "id"
    let (r, res) := r.value id
    return (r, outcomeAnswer (res.map (·.getD .null)))
  | "peek" =>
    let id ← identityField step "id"
    let (r, p) := r.proxy id
    return (r, resultAnswer (p.value.getD .null))
  | "state" =>
    let id ← identityField step "id"
    let (r, p) := r.proxy id
    return (r, resultAnswer (proxyStateView r.options.policy p))
  | "stats" =>
    let id ← identityField step "id"
    let (r, p) := r.proxy id
    return (r, resultAnswer (proxyStatsView p.stats))
  | "expire" =>
    let id ← identityField step "id"
    let (r, done) := r.withProxy id fun p b => let (p, done) := p.expire; (p, b, done)
    return (r, resultAnswer (.bool done))
  | "weak_expire" =>
    let id ← identityField step "id"
    let (r, done) := r.withProxy id fun p b => let (p, done) := p.weakExpire; (p, b, done)
    return (r, resultAnswer (.bool done))
  | "update_vo" =>
    let id ← identityField step "id"
    let (r, _) := r.proxy id
    let read : Except Value (Value × Lineage) := do
      return (← lift (need step "value"), Lineage.parse (← lift (str step "version")))
    match read with
    | .error v => return (r, v)
    | .ok (value, version) =>
      let (r, done) := r.withProxy id fun p b => p.updateValue b value version
      return (r, resultAnswer (.bool done))
  | "write" =>
    let id ← identityField step "id"
    let (r, _) := r.proxy id
    match need step "value", present? step "during" with
    | .error e, _ => return (r, badInput e)
    | .ok value, none =>
      let (r, res) := r.write id value
      return (r, outcomeAnswer (res.map fun v => .str v.render))
    | .ok value, some (.arr during) => return pendingWrite r id value during
    | .ok _, some _ => return (r, badInput "during")
  | "same_proxy" =>
    let id ← identityField step "id"
    let (r, p) := r.proxy id
    match identityField step "id2" with
    | .error v => return (r, v)
    | .ok id2 =>
      let (r, q) := r.proxy id2
      return (r, resultAnswer (.bool (p.serial == q.serial)))
  | "remove" =>
    let id ← identityField step "id"
    let (r, had) := r.remove id
    return (r, resultAnswer (.bool had))
  | "expire_all" =>
    let (r, n) := r.expireAll
    return (r, resultAnswer (.ofNat n))
  | "len" => return (r, resultAnswer (sizeView r.size))
  | other => throw (badInput ("unknown proxy step " ++ other))

def proxyStep (r : Registry Value) (step : Value) : Registry Value × Value :=
  match proxyStepCore r step with
  | .ok (r, answer) => (r.drain, answer)
  | .error v => (r.drain, v)

/-- The settings of a proxy scenario: defaults on node `n1`, under the given configuration,
section by section. -/
def proxySettings (config : Value) : Except Value Settings := do
  let base : Settings := { node := { id := "n1" } }
  let s ← lift (readSettings (mergeJson base.toJson config))
  match s.validate with
  | .ok () => return s
  | .error f => throw (faultAnswer f)

/-- `proxy`: a registry of proxies over a source in memory, and steps on them. -/
def proxySteps (cmd : Value) : Decode Value := do
  let config := (present? cmd "config").getD (.obj [])
  let fallback ← match cmd.field? "offline" with
    | none | some (.bool false) => pure Fallback.none
    | some (.bool true) => pure Fallback.copies
    | some (.str "broken") => pure Fallback.broken
    | some _ => throw "field offline must be a boolean"
  let readOnly ← boolOr cmd "read_only" false
  let clock ← i64Or cmd "clock" 0
  let steps ← arr cmd "steps"
  match proxySettings config with
  | .error v => return v
  | .ok s =>
    let options : ProxyOptions := {
      node := s.node.id
      maxRun := s.version.maxSameNodeRun
      policy := ExpiryPolicy.ofMillis s.proxy.expiryMs
      privateLoaders := s.proxy.loader == .dedicated }
    let backing : Backing Value := ⟨.empty, !readOnly, .empty, fallback, clock⟩
    return .arr (runSteps (Registry.create options backing) steps proxyStep).2

end Stowage.Console
