import Stowage.Settings.Basic
import Stowage.Json.Write
/-!
Settings as JSON objects.

`Settings.toJson` writes every section with every field. `Settings.ofJson` reads an object in
which every section and field may be missing (and takes its default) and unknown fields are
ignored; a field of the wrong type fails with a message naming what was found and what was
expected, the first such field in key order deciding. `merge` lays one object over another,
section by section.
-/
namespace Stowage

open Stowage.Json

/-- How an unexpected JSON value is named in messages. -/
def describeFound : Value → String
  | .null => "null"
  | .bool b => "boolean `" ++ (if b then "true" else "false") ++ "`"
  | .num (.int i) => "integer `" ++ toString i ++ "`"
  | .num (.float f) => "floating point `" ++ Decimal.Style.plain.float f ++ "`"
  | .str s => "string " ++ Text.quoteString s
  | .arr _ => "sequence"
  | .obj _ => "map"

/-- The message for a value of the wrong type. -/
def wrongType (found : Value) (expected : String) : String :=
  "invalid type: " ++ describeFound found ++ ", expected " ++ expected

namespace Settings

/-- Read an unsigned integer no greater than `bound`, named `typeName` in messages. -/
def readUnsigned (typeName : String) (bound : Nat) (v : Value) : Except String Nat :=
  match v with
  | .num (.int i) =>
    if 0 ≤ i ∧ i.toNat ≤ bound then .ok i.toNat
    else .error ("invalid value: integer `" ++ toString i ++ "`, expected " ++ typeName)
  | _ => .error (wrongType v typeName)

/-- Read a signed 64-bit integer. -/
def readSigned (v : Value) : Except String Int :=
  match v with
  | .num (.int i) =>
    if i < Int.pow 2 63 then .ok i
    else .error ("invalid value: integer `" ++ toString i ++ "`, expected i64")
  | _ => .error (wrongType v "i64")

/-- Read a boolean. -/
def readBool (v : Value) : Except String Bool :=
  match v with
  | .bool b => .ok b
  | _ => .error (wrongType v "a boolean")

/-- Read a string. -/
def readString (v : Value) : Except String String :=
  match v with
  | .str s => .ok s
  | _ => .error (wrongType v "a string")

/-- Read a loader mode by its lowercase name. -/
def readLoader (v : Value) : Except String LoaderMode :=
  match v with
  | .str "shared" => .ok .shared
  | .str "private" => .ok .dedicated
  | .str s => .error ("unknown variant `" ++ s ++ "`, expected `shared` or `private`")
  | _ => .error (wrongType v "enum LoaderMode")

/-- The greatest value of a 64-bit word. -/
def wordMax : Nat := Nat.pow 2 64 - 1

/-- The greatest value of a 32-bit word. -/
def halfWordMax : Nat := Nat.pow 2 32 - 1

/-- Apply the fields of a section object, in key order, to a section value. -/
def applyFields {α : Type} (typeName : String) (v : Value) (start : α)
    (field : String → Value → α → Option (Except String α)) : Except String α :=
  match v with
  | .obj fields =>
    fields.foldlM (fun acc kv =>
      match field kv.1 kv.2 acc with
      | some r => r
      | none => .ok acc) start
  | _ => .error (wrongType v ("struct " ++ typeName))

/-- Read the `node` section over `s`. -/
def readNode (v : Value) (s : NodeSettings) : Except String NodeSettings :=
  applyFields "NodeConfig" v s fun k x acc =>
    match k with
    | "id" => some ((fun id => { acc with id := id }) <$> readString x)
    | _ => none

/-- Read the `version` section over `s`. -/
def readVersion (v : Value) (s : VersionSettings) : Except String VersionSettings :=
  applyFields "VersionConfig" v s fun k x acc =>
    match k with
    | "max_same_node_run" =>
      some ((fun n => { acc with maxSameNodeRun := n }) <$> readUnsigned "usize" wordMax x)
    | _ => none

/-- Read the `cache` section over `s`. -/
def readCache (v : Value) (s : CacheSettings) : Except String CacheSettings :=
  applyFields "CacheConfig" v s fun k x acc =>
    match k with
    | "capacity" => some ((fun n => { acc with capacity := n }) <$> readUnsigned "usize" wordMax x)
    | "idle_timeout_ms" =>
      some ((fun n => { acc with idleTimeoutMs := n }) <$> readUnsigned "u64" wordMax x)
    | _ => none

/-- Read the `flusher` section over `s`. -/
def readFlusher (v : Value) (s : FlusherSettings) : Except String FlusherSettings :=
  applyFields "FlusherConfig" v s fun k x acc =>
    match k with
    | "write_behind" => some ((fun b => { acc with writeBehind := b }) <$> readBool x)
    | "delay_ms" => some ((fun n => { acc with delayMs := n }) <$> readUnsigned "u64" wordMax x)
    | "max_pending" =>
      some ((fun n => { acc with maxPending := n }) <$> readUnsigned "usize" wordMax x)
    | "period_ms" => some ((fun n => { acc with periodMs := n }) <$> readUnsigned "u64" wordMax x)
    | "retry_limit" =>
      some ((fun n => { acc with retryLimit := n }) <$> readUnsigned "u32" halfWordMax x)
    | "drain_attempts" =>
      some ((fun n => { acc with drainAttempts := n }) <$> readUnsigned "u32" halfWordMax x)
    | "oom_backoff_ms" =>
      some ((fun n => { acc with oomBackoffMs := n }) <$> readUnsigned "u64" wordMax x)
    | _ => none

/-- Read the `proxy` section over `s`. -/
def readProxy (v : Value) (s : ProxySettings) : Except String ProxySettings :=
  applyFields "ProxyConfig" v s fun k x acc =>
    match k with
    | "expiry_ms" => some ((fun n => { acc with expiryMs := n }) <$> readSigned x)
    | "loader" => some ((fun m => { acc with loader := m }) <$> readLoader x)
    | _ => none

/-- Read the `persister` section over `s`. -/
def readPersister (v : Value) (s : PersisterSettings) : Except String PersisterSettings :=
  applyFields "PersisterConfig" v s fun k x acc =>
    match k with
    | "owner_only" => some ((fun b => { acc with ownerOnly := b }) <$> readBool x)
    | "check_duplicate_ids" => some ((fun b => { acc with checkDuplicateIds := b }) <$> readBool x)
    | "id_retries" =>
      some ((fun n => { acc with idRetries := n }) <$> readUnsigned "u32" halfWordMax x)
    | _ => none

/-- Read settings from an object; missing sections and fields keep their defaults. -/
def ofJson (v : Value) : Except String Settings :=
  applyFields "Config" v {} fun k x acc =>
    match k with
    | "node" => some ((fun n => { acc with node := n }) <$> readNode x {})
    | "version" => some ((fun n => { acc with version := n }) <$> readVersion x {})
    | "cache" => some ((fun n => { acc with cache := n }) <$> readCache x {})
    | "flusher" => some ((fun n => { acc with flusher := n }) <$> readFlusher x {})
    | "proxy" => some ((fun n => { acc with proxy := n }) <$> readProxy x {})
    | "persister" => some ((fun n => { acc with persister := n }) <$> readPersister x {})
    | _ => none

/-- Every section with every field. -/
def toJson (s : Settings) : Value :=
  Value.ofFields [
    ("node", Value.ofFields [("id", .str s.node.id)]),
    ("version", Value.ofFields [("max_same_node_run", .ofNat s.version.maxSameNodeRun)]),
    ("cache", Value.ofFields [("capacity", .ofNat s.cache.capacity),
      ("idle_timeout_ms", .ofNat s.cache.idleTimeoutMs)]),
    ("flusher", Value.ofFields [("write_behind", .bool s.flusher.writeBehind),
      ("delay_ms", .ofNat s.flusher.delayMs), ("max_pending", .ofNat s.flusher.maxPending),
      ("period_ms", .ofNat s.flusher.periodMs), ("retry_limit", .ofNat s.flusher.retryLimit),
      ("drain_attempts", .ofNat s.flusher.drainAttempts),
      ("oom_backoff_ms", .ofNat s.flusher.oomBackoffMs)]),
    ("proxy", Value.ofFields [("expiry_ms", .ofInt s.proxy.expiryMs),
      ("loader", .str s.proxy.loader.name)]),
    ("persister", Value.ofFields [("owner_only", .bool s.persister.ownerOnly),
      ("check_duplicate_ids", .bool s.persister.checkDuplicateIds),
      ("id_retries", .ofNat s.persister.idRetries)])]

end Settings

/-- Lay `top` over `base`: objects merge key by key, recursively; anything else replaces. -/
def mergeJson : Value → Value → Value
  | .obj base, .obj top => .obj (top.foldl (fun acc kv =>
      match acc.lookup kv.1 with
      | some old => Value.insertField kv.1 (mergeShallow old kv.2) acc
      | none => Value.insertField kv.1 kv.2 acc) base)
  | _, top => top
where
  mergeShallow : Value → Value → Value
    | .obj b, .obj t => .obj (t.foldl (fun acc kv => Value.insertField kv.1 kv.2 acc) b)
    | _, t => t

end Stowage
