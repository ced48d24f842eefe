import Stowage.Console.Basics
import Stowage.Queue
import Stowage.Listeners
namespace Stowage.Console

open Stowage.Json

def queueStep (q : KeyedQueue String Value) (step : Value) : KeyedQueue String Value × Value :=
  let run : Decode (KeyedQueue String Value × Value) := do
    match ← str step "do" with
    | "push" =>
      let (q', fresh) := q.push (← str step "key") (← need step "value") 0
      return (q', .bool fresh)
    | "remove" =>
      let (q', old) := q.remove (← str step "key")
      return (q', old.getD .null)
    | "contains" => return (q, .bool (q.contains (← str step "key")))
    | "len" => return (q, .ofNat q.size)
    | "is_empty" => return (q, .bool q.isEmpty)
    | "has_oldest" => return (q, .bool q.oldest?.isSome)
    | "take_all" =>
      return (KeyedQueue.empty, .arr (q.toList.map fun kv => .arr [.str kv.1, kv.2]))
    | other => throw ("unknown keyed_queue step " ++ other)
  match run with
  | .ok (q', v) => (q', resultAnswer v)
  | .error e => (q, badInput e)

/-- `keyed_queue`: steps on one queue. -/
def queueSteps (cmd : Value) : Decode Value := do
  return .arr (runSteps KeyedQueue.empty (← arr cmd "steps") queueStep).2

structure LogListener where
  name : String
  adds : Option String

/-- Listener registry of the console with the numbers registered under each name. A name keeps
its numbers after a removal, so removing by name again answers `false`. -/
structure ListenerBench where
  registry : Listeners LogListener
  byName : List (String × List Nat)

def ListenerBench.add (b : ListenerBench) (l : LogListener) : ListenerBench :=
  let (reg, n) := b.registry.add l
  let old := (b.byName.lookup l.name).getD []
  ⟨reg, (l.name, old ++ [n]) :: b.byName.filter (·.1 != l.name)⟩

def readChange (s : String) : Decode String :=
  if s = "new" ∨ s = "update" ∨ s = "delete" ∨ s = "unknown" then .ok s
  else .error "unknown change kind"

def ListenerBench.fanOut (b : ListenerBench) (change : String) (id : Identity) (value : Value) :
    ListenerBench × List Value :=
  let (b, log) := b.registry.snapshot.foldl (fun (acc : ListenerBench × List Value) l =>
    let entry := Value.ofFields [("listener", .str l.name), ("change", .str change),
      ("id", .str id.render), ("value", value)]
    let b := match l.adds with
      | some n => acc.1.add ⟨n, none⟩
      | none => acc.1
    (b, entry :: acc.2)) (b, [])
  (b, log.reverse)

def listenerStep (b : ListenerBench) (step : Value) : ListenerBench × Value :=
  let run : Except Value (ListenerBench × Value) := do
    match ← lift (str step "do") with
    | "add" =>
      return (b.add ⟨← lift (str step "name"), strLoose step "adds"⟩, resultAnswer .null)
    | "remove" =>
      let name ← lift (str step "name")
      match (b.byName.lookup name).getD [] |>.getLast? with
      | none => throw (badInput "unknown listener")
      | some n =>
        let (reg, removed) := b.registry.remove n
        return ({ b with registry := reg }, resultAnswer (.bool removed))
    | "len" =>
      return (b, resultAnswer (Value.ofFields [("len", .ofNat b.registry.size),
        ("is_empty", .bool (b.registry.size == 0))]))
    | "fan_out" =>
      let change ← lift (str step "change" >>= readChange)
      let id ← identityField step "id"
      let (b', log) := b.fanOut change id ((present? step "value").getD .null)
      return (b', resultAnswer (.arr log))
    | other => throw (badInput ("unknown listeners step " ++ other))
  match run with
  | .ok res => res
  | .error v => (b, v)

/-- `listeners`: steps on one registry. -/
def listenerSteps (cmd : Value) : Decode Value := do
  return .arr (runSteps (⟨Listeners.empty, []⟩ : ListenerBench) (← arr cmd "steps") listenerStep).2

end Stowage.Console
