import Stowage.Settings.Raw
/-!
Reading settings from raw values.

Raw values convert the way configuration values do. Text reads as a number when it is one and as
a flag when it is `true`, `on`, `yes`, `1` or `false`, `off`, `no`, `0` in any case; numbers and
flags read as text; a flag reads as `1` or `0`; a fractional number reads as the nearest whole
number, halves away from zero, clamped to the range. Text that is no number is refused.

A section is a table of fields, read in order; unknown fields are ignored and missing ones keep
their defaults. A list reads as the fields in their declared order. Anything else is refused as
a whole section.

A refusal names what was found, what was expected, the key path of the field and where the value
came from. A section of the wrong shape is refused with the name of the section's type instead.
-/
namespace Stowage.Settings

open Stowage.Decimal
open Stowage.Text

/-- What a refused value was, as the conversions name it. -/
inductive Found where
  | bool (b : Bool)
  | int (i : Int)
  | unsigned (n : Nat)
  | float (f : Float)
  | str (s : String)
  | unit
  | seq
  | map
  deriving Inhabited

/-- How a conversion names what it found. -/
def Found.describe : Found → String
  | .bool b => "boolean `" ++ toString b ++ "`"
  | .int i => "64-bit integer `" ++ toString i ++ "`"
  | .unsigned n => "64-bit unsigned integer `" ++ toString n ++ "`"
  | .float f => "floating point `" ++ positional f ++ "`"
  | .str s => "string " ++ quoteString s
  | .unit => "unit value"
  | .seq => "sequence"
  | .map => "map"

/-- What a raw value is, for messages. -/
def Raw.found : Raw → Found
  | .nil _ => .unit
  | .bool _ b => .bool b
  | .int _ i => .int i
  | .float _ f => .float f
  | .str _ s => .str s
  | .list _ _ => .seq
  | .table _ _ => .map

/-- Why settings could not be read. -/
inductive LoadError where
  /-- A value of the wrong kind, at a key path, from an origin. -/
  | mismatch (origin : Origin) (found : Found) (expected : String) (key : Option String)
  /-- Any other refusal. -/
  | message (text : String)
  /-- A file that could not be read, with where it is. -/
  | fileParse (cause : String) (uri : Option String)
  /-- The loader crashed, with the crash's message. -/
  | crash (message : String)
  deriving Inhabited

namespace LoadError

/-- Put a field name in front of the key path of a mismatch. -/
def prependKey (e : LoadError) (segment : String) : LoadError :=
  match e with
  | .mismatch o f x key =>
    let rest := key.getD ""
    let dot := if rest.startsWith "[" || rest.isEmpty then "" else "."
    .mismatch o f x (some (segment ++ dot ++ rest))
  | other => other

/-- The message. -/
def text : LoadError → String
  | .mismatch o f x key =>
    "invalid type: " ++ f.describe ++ ", expected " ++ x ++
      (match key with | some k => " for key `" ++ k ++ "`" | none => "") ++
      (match o with | some o => " in " ++ o | none => "")
  | .message t => t
  | .fileParse cause uri => cause ++ (match uri with | some u => " in " ++ u | none => "")
  | .crash m => m

end LoadError

/-- Read a value of a structure-like type that was given a plain value: how a section names what
it found. -/
def describeForSection : Raw → String
  | .nil _ => "unit value"
  | .bool _ b => "boolean `" ++ toString b ++ "`"
  | .int _ i => "integer `" ++ toString i ++ "`"
  | .float _ f =>
    let t := positional f
    "floating point `" ++ (if t.contains '.' || t.contains 'N' || t.contains 'i' then t else t ++ ".0")
      ++ "`"
  | .str _ s => "string " ++ quoteString s
  | .list _ _ => "sequence"
  | .table _ _ => "map"

/-- Read an unsigned decimal: an optional `+`, then digits only. -/
def parseUnsigned (s : String) : Option Nat :=
  let cs := match s.toList with
    | '+' :: rest => rest
    | cs => cs
  if cs.isEmpty || !cs.all Char.isDigit then none
  else
    let n := (String.ofList cs).toNat!
    if n < Nat.pow 2 64 then some n else none

/-- Read a signed decimal: an optional sign, then digits only. -/
def parseSigned (s : String) : Option Int :=
  let (negative, cs) := match s.toList with
    | '+' :: rest => (false, rest)
    | '-' :: rest => (true, rest)
    | cs => (false, cs)
  if cs.isEmpty || !cs.all Char.isDigit then none
  else
    let n : Int := (String.ofList cs).toNat!
    let v := if negative then -n else n
    if -Int.pow 2 63 ≤ v ∧ v < Int.pow 2 63 then some v else none

/-- The flag a word stands for, in any case. -/
def wordFlag (s : String) : Option Bool :=
  match s.toLower with
  | "true" | "on" | "yes" => some true
  | "false" | "off" | "no" => some false
  | _ => none

/-- The nearest whole number to a double, halves away from zero, clamped to the unsigned 64-bit
range; `NaN` reads as zero. -/
def roundUnsigned (f : Float) : Nat := f.round.toUInt64.toNat

/-- The nearest whole number to a double, halves away from zero, clamped to the signed 64-bit
range; `NaN` reads as zero. -/
def roundSigned (f : Float) : Int :=
  let r := f.round
  if r.isNaN then 0
  else if r ≥ 9223372036854775808.0 then Int.pow 2 63 - 1
  else if r ≤ -9223372036854775808.0 then -Int.pow 2 63
  else if r < 0 then -((-r).toUInt64.toNat : Int)
  else r.toUInt64.toNat

namespace Raw

/-- Read as text. -/
def toText (r : Raw) : Except LoadError String :=
  match r with
  | .str _ s => .ok s
  | .bool _ b => .ok (toString b)
  | .int _ i => .ok (toString i)
  | .float _ f => .ok (positional f)
  | _ => .error (.mismatch r.origin r.found "a string" none)

/-- Read as a flag. -/
def toFlag (r : Raw) : Except LoadError Bool :=
  match r with
  | .bool _ b => .ok b
  | .int _ i => .ok (i != 0)
  | .float _ f => .ok (f != 0)
  | .str o s =>
    match s.toLower with
    | "1" | "true" | "on" | "yes" => .ok true
    | "0" | "false" | "off" | "no" => .ok false
    | lower => .error (.mismatch o (.str lower) "a boolean" none)
  | _ => .error (.mismatch r.origin r.found "a boolean" none)

/-- Read as an unsigned 64-bit number. -/
def toUnsigned (r : Raw) : Except LoadError Nat :=
  match r with
  | .int o i =>
    if 0 ≤ i then .ok i.toNat
    else .error (.mismatch o (.int i) "an unsigned 64 bit or less integer" none)
  | .str o s =>
    match wordFlag s with
    | some b => .ok (if b then 1 else 0)
    | none =>
      match parseUnsigned s with
      | some n => .ok n
      | none => .error (.mismatch o (.str s) "an integer" none)
  | .bool _ b => .ok (if b then 1 else 0)
  | .float _ f => .ok (roundUnsigned f)
  | _ => .error (.mismatch r.origin r.found "an integer" none)

/-- Read as a signed 64-bit number. -/
def toSigned (r : Raw) : Except LoadError Int :=
  match r with
  | .int _ i => .ok i
  | .str o s =>
    match wordFlag s with
    | some b => .ok (if b then 1 else 0)
    | none =>
      match parseSigned s with
      | some n => .ok n
      | none => .error (.mismatch o (.str s) "an integer" none)
  | .bool _ b => .ok (if b then 1 else 0)
  | .float _ f => .ok (roundSigned f)
  | _ => .error (.mismatch r.origin r.found "an integer" none)

/-- Read as an unsigned number of at most `bits` bits. -/
def toWord (bits : Nat) (r : Raw) : Except LoadError Nat := do
  let n ← r.toUnsigned
  if n < Nat.pow 2 bits then return n
  else throw (.mismatch none (.unsigned n) ("an unsigned " ++ toString bits ++ " bit integer") none)

/-- Read a loader mode: its name in any case, or a table with its name as the only key. -/
def toLoader (r : Raw) : Except LoadError LoaderMode :=
  let byName := fun (s : String) =>
    match s.toLower with
    | "shared" => Except.ok LoaderMode.shared
    | "private" => .ok .dedicated
    | _ => .error (.message ("enum LoaderMode does not have variant constructor " ++ s))
  match r with
  | .str _ s => byName s
  | .table _ [(k, _)] => byName k
  | _ => .error (.message
      "value of enum LoaderMode should be represented by either string or table with exactly one key")

end Raw

/-- A field of a section: its name and how it is read over the section so far. -/
abbrev FieldReader (α : Type) := String × (Raw → α → Except LoadError α)

/-- Read a section over `start`: a table field by field, a list in declared field order. -/
def readSection {α : Type} (typeName : String) (fields : List (FieldReader α)) (start : α)
    (r : Raw) : Except LoadError α :=
  match r with
  | .table _ es =>
    es.foldlM (fun acc e =>
      match fields.lookup e.1 with
      | some read => (read e.2 acc).mapError (·.prependKey e.1)
      | none => .ok acc) start
  | .list _ items =>
    (fields.zip items).zipIdx.foldlM (fun acc p =>
      (p.1.1.2 p.1.2 acc).mapError (·.prependKey ("[" ++ toString p.2 ++ "]"))) start
  | other => .error (.message ("invalid type: " ++ describeForSection other ++ ", expected struct " ++
      typeName))

/-- The fields of the `node` section. -/
def nodeFields : List (FieldReader NodeSettings) :=
  [("id", fun r s => (fun v => { s with id := v }) <$> r.toText)]

/-- The fields of the `version` section. -/
def versionFields : List (FieldReader VersionSettings) :=
  [("max_same_node_run", fun r s => (fun v => { s with maxSameNodeRun := v }) <$> r.toUnsigned)]

/-- The fields of the `cache` section. -/
def cacheFields : List (FieldReader CacheSettings) :=
  [("capacity", fun r s => (fun v => { s with capacity := v }) <$> r.toUnsigned),
   ("idle_timeout_ms", fun r s => (fun v => { s with idleTimeoutMs := v }) <$> r.toUnsigned)]

/-- The fields of the `flusher` section. -/
def flusherFields : List (FieldReader FlusherSettings) :=
  [("write_behind", fun r s => (fun v => { s with writeBehind := v }) <$> r.toFlag),
   ("delay_ms", fun r s => (fun v => { s with delayMs := v }) <$> r.toUnsigned),
   ("max_pending", fun r s => (fun v => { s with maxPending := v }) <$> r.toUnsigned),
   ("period_ms", fun r s => (fun v => { s with periodMs := v }) <$> r.toUnsigned),
   ("retry_limit", fun r s => (fun v => { s with retryLimit := v }) <$> r.toWord 32),
   ("drain_attempts", fun r s => (fun v => { s with drainAttempts := v }) <$> r.toWord 32),
   ("oom_backoff_ms", fun r s => (fun v => { s with oomBackoffMs := v }) <$> r.toUnsigned)]

/-- The fields of the `proxy` section. -/
def proxyFields : List (FieldReader ProxySettings) :=
  [("expiry_ms", fun r s => (fun v => { s with expiryMs := v }) <$> r.toSigned),
   ("loader", fun r s => (fun v => { s with loader := v }) <$> r.toLoader)]

/-- The fields of the `persister` section. -/
def persisterFields : List (FieldReader PersisterSettings) :=
  [("owner_only", fun r s => (fun v => { s with ownerOnly := v }) <$> r.toFlag),
   ("check_duplicate_ids", fun r s => (fun v => { s with checkDuplicateIds := v }) <$> r.toFlag),
   ("id_retries", fun r s => (fun v => { s with idRetries := v }) <$> r.toWord 32)]

/-- The sections of the settings. -/
def sectionFields : List (FieldReader Settings) :=
  [("node", fun r s => (fun v => { s with node := v }) <$> readSection "NodeConfig" nodeFields {} r),
   ("version", fun r s =>
      (fun v => { s with version := v }) <$> readSection "VersionConfig" versionFields {} r),
   ("cache", fun r s => (fun v => { s with cache := v }) <$> readSection "CacheConfig" cacheFields {} r),
   ("flusher", fun r s =>
      (fun v => { s with flusher := v }) <$> readSection "FlusherConfig" flusherFields {} r),
   ("proxy", fun r s => (fun v => { s with proxy := v }) <$> readSection "ProxyConfig" proxyFields {} r),
   ("persister", fun r s =>
      (fun v => { s with persister := v }) <$> readSection "PersisterConfig" persisterFields {} r)]

/-- Read settings from a raw tree; what it does not give keeps its default. -/
def ofRaw (r : Raw) : Except LoadError Settings := readSection "Config" sectionFields {} r

end Stowage.Settings
