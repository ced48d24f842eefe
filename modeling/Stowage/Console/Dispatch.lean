import Stowage.Console.Version
import Stowage.Console.Parts
import Stowage.Console.Cache
import Stowage.Console.Flusher
import Stowage.Console.Repository
import Stowage.Console.Proxy
import Stowage.Console.Loading
import Stowage.Console.Soak
import Stowage.Json.Read
/-!
The console: one JSON command in, one JSON answer out.

A command names its operation in `op`. Text that is not JSON, a command that is not an object
and an unknown operation are answered with a `BadInput` error.
-/
namespace Stowage.Console

open Stowage.Json

def handler? (op : String) : Option (Value → Decode Value) :=
  match op with
  | "tag_parse" => some tagParse
  | "tag_new" => some tagNew
  | "tag_next" => some tagNext
  | "lineage" => some lineageInfo
  | "lineage_append" => some lineageAppend
  | "lineage_compare" => some lineageCompare
  | "lineage_writes" => some lineageWrites
  | "lineage_forms" => some lineageForms
  | "identity_parse" => some identityParse
  | "identity_new" => some identityNew
  | "identity_unchecked" => some identityUnchecked
  | "identity_forms" => some identityForms
  | "change_kind" => some changeKinds
  | "error" => some faultInfo
  | "system_clock" => some systemClock
  | "uuid_key" => some hexKeyShape
  | "freshness" => some freshnessInfo
  | "config" => some settingsInfo
  | "query_info" => some queryInfo
  | "query_field_eq" => some queryFieldEq
  | "query" => some queryMatch
  | "record" => some recordSteps
  | "mapper" => some mapperRun
  | "keyed_queue" => some queueSteps
  | "listeners" => some listenerSteps
  | "cache" => some cacheSteps
  | "flusher" => some flusherSteps
  | "delay_loader" => some reloadSteps
  | "persister" => some persisterSteps
  | "proxy" => some proxySteps
  | "config_load" => some settingsLoad
  | "soak_run" => some soakRun
  | "soak_cli" => some soakCli
  | _ => none

def answer (cmd : Value) : Value :=
  match str cmd "op" with
  | .error e => badInput e
  | .ok op =>
    match handler? op with
    | none => badInput ("unknown op " ++ op)
    | some h =>
      match h cmd with
      | .ok v => v
      | .error e => badInput e

def answerLine (line : String) : String :=
  match readValue line with
  | .error _ => (badInput "invalid JSON").compact
  | .ok cmd => (answer cmd).compact

end Stowage.Console
