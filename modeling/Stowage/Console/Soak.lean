import Stowage.Console.Loading
import Stowage.Soak.Cli
import Stowage.Json.Read
/-!
Console runs of the soak workload.

A run's settings are the defaults with the node id `soak` and hour-long flusher timers, under
the given configuration. The answer is the report and whether the run was healthy, or, for runs
whose nodes share accounts, only the counts that do not depend on how the nodes interleave.

The command line runs in process, on the given arguments, environment and settings file; its
output is answered as JSON when it is JSON.
-/
namespace Stowage.Console

open Stowage.Json
open Stowage.Soak

def soakSettings (config : Value) : Except Value Settings :=
  let base : Settings := {
    node := { id := "soak" }
    flusher := { delayMs := 3600000, periodMs := 3600000 } }
  lift (readSettings (mergeJson base.toJson config))

def summaryView (r : SoakReport) : Value :=
  Value.ofFields [("healthy", .bool r.isHealthy), ("stored_records", .ofNat r.storedRecords),
    ("nodes", .arr (r.nodes.map fun n => Value.ofFields [("node", .str n.node),
      ("deposits", .ofNat n.deposits), ("quote_reads", .ofNat n.quoteReads)]))]

/-- `soak_run`: one seeded run of the workload. -/
def soakRun (cmd : Value) : Decode Value := do
  let seed ← u64 cmd "seed"
  let nodes ← u64Or cmd "nodes" 1
  let accounts ← u64Or cmd "accounts" 4
  let operations ← u64Or cmd "operations" 50
  let quotes ← u64Or cmd "quotes" 2
  let summary ← boolOr cmd "summary" false
  let config := (present? cmd "config").getD (.obj [])
  return match soakSettings config with
    | .error v => v
    | .ok s =>
      match Soak.run s ⟨nodes, accounts, operations, quotes, seed.toUInt64⟩ with
      | .error f => faultAnswer f
      | .ok r =>
        if summary then summaryView r
        else Value.ofFields [("healthy", .bool r.isHealthy), ("report", r.toJson)]

/-- `soak_cli`: the command line on arguments, an environment and a settings file.

The file, when there is one, is `config.<format>` in a scratch directory written `<dir>`, the
format being TOML unless given as a string. An
argument or variable value that is exactly `<file>` stands for its path, and the outputs write
that path `<file>` again. -/
def soakCli (cmd : Value) : Decode Value := do
  let _ ← need cmd "args"
  let args ← strList cmd "args"
  let env ← readEnvironment cmd
  let disk ← match present? cmd "file" with
    | some spec =>
      let text ← str spec "text"
      pure [("<dir>/config." ++ (strLoose spec "format").getD "toml", text)]
    | none => pure []
  let (place, shown) : (String → String) × (String → String) := match disk with
    | (path, _) :: _ =>
      (fun s => if s == "<file>" then path else s, fun s => s.replace path "<file>")
    | [] => (id, id)
  let e := Cli.run (args.map place) (env.map fun (k, v) => (k, place v)) disk
  let out := match readValue (shown e.stdout) with
    | .ok v => v
    | .error _ => .str (shown e.stdout)
  return Value.ofFields [("status", .ofNat e.status), ("stdout", out),
    ("stderr", .str (shown e.stderr))]

end Stowage.Console
