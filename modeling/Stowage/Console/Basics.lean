import Stowage.Console.Input
import Stowage.Query
import Stowage.Settings.Json
import Stowage.Remote.Expiry
import Stowage.Json.Write
import Stowage.Keys
namespace Stowage.Console

open Stowage.Json

def faultAnswer (f : Fault) : Value := errorAnswer f.kindName f.message

def identityErrorAnswer (e : IdentityError) : Value := errorAnswer "IdentityError" e.message

def outcomeAnswer (r : Outcome Value) : Value :=
  match r with
  | .ok v => resultAnswer v
  | .error f => faultAnswer f

def identityView (id : Identity) (node : Option String) : Value :=
  Value.ofFields ([("text", .str id.render), ("kind", .str id.kind), ("key", .str id.key),
    ("owner", Value.ofOption id.owner)] ++
    match node with
    | some n => [("owned_by", .bool (id.isOwnedBy n))]
    | none => [])

/-- `identity_parse`: read an identity's text. -/
def identityParse (cmd : Value) : Decode Value := do
  let text ← str cmd "text"
  let node ← strOpt cmd "node"
  return match Identity.parse text with
    | .ok id => identityView id node
    | .error e => identityErrorAnswer e

/-- `identity_new`: an identity from kind, key and optional owner. -/
def identityNew (cmd : Value) : Decode Value := do
  let kind ← str cmd "kind"
  let key ← str cmd "key"
  let owner ← strOpt cmd "owner"
  let node ← strOpt cmd "node"
  let built := Identity.make kind key >>= fun id =>
    match owner with
    | some o => id.withOwner o
    | none => .ok id
  return match built with
    | .ok id => identityView id node
    | .error e => identityErrorAnswer e

/-- `identity_unchecked`: an identity without checks. -/
def identityUnchecked (cmd : Value) : Decode Value := do
  let id := Identity.unchecked (← str cmd "kind") (← str cmd "key")
  return Value.ofFields [("text", .str id.render), ("debug", .str id.debugText),
    ("kind", .str id.kind), ("key", .str id.key)]

/-- `identity_forms`: conversions of an identity's text. -/
def identityForms (cmd : Value) : Decode Value := do
  let text ← str cmd "text"
  let parsed := Identity.parse text
  let tryFrom := match parsed with
    | .ok id => Value.ofFields [("debug", .str id.debugText), ("string", .str id.render),
        ("serde", .str (quote id.render))]
    | .error e => identityErrorAnswer e
  let back := match parsed with
    | .ok id => .str id.render
    | .error _ => .null
  return Value.ofFields [("try_from", tryFrom), ("deserialized", back)]

/-- `change_kind`: the names of change kinds. -/
def changeKinds (_ : Value) : Decode Value :=
  return .arr [.str "new", .str "update", .str "delete", .str "unknown"]

/-- A failure built from its kind and parts, read loosely: a text that is missing or not a
string is empty, an attempt count that is missing or not a `u64` is zero, and a kind that is
missing or unknown stands for a timeout. -/
def faultOfParts (spec : Value) : Fault :=
  let text (name : String) : String := (strLoose spec name).getD ""
  let msg := text "message"
  match (strLoose spec "error").getD "" with
  | "Backend" => .backend msg
  | "VersionConflict" => .versionConflict (text "id") (text "expected") (text "actual")
  | "IdDuplicate" => .idDuplicate (((spec.field? "attempts").bind Value.asU64?).getD 0)
  | "Invariant" => .invariant msg
  | "InvalidArgument" => .invalidArgument msg
  | "ResourceExhausted" => .resourceExhausted msg
  | "Closed" => .closed
  | "NotSupported" => .notSupported msg
  | "Configuration" => .configuration msg
  | "Serialization" => .serialization msg
  | "Internal" => .internal msg
  | _ => .timeout

/-- `error`: a failure's kind, message and classes. -/
def faultInfo (cmd : Value) : Decode Value := do
  let f := faultOfParts cmd
  return Value.ofFields [("kind", .str f.kindName), ("display", .str f.message),
    ("retryable", .bool f.isRetryable), ("fatal", .bool f.isFatal),
    ("conflict", .bool f.isConflict)]

/-- `system_clock`: the wall clock is after the start of 2020. -/
def systemClock (_ : Value) : Decode Value :=
  return Value.ofFields [("after_2020", .bool true)]

/-- `uuid_key`: the shape of a hexadecimal key behind a prefix. -/
def hexKeyShape (cmd : Value) : Decode Value := do
  let pfx ← str cmd "prefix"
  let key := ((KeySource.start .hex).next pfx).2
  let rest := key.toList.drop pfx.length
  let lowerHex := rest.length == 32 && rest.all fun c => c.isDigit || ('a' ≤ c && c ≤ 'f')
  return Value.ofFields [("len", .ofNat key.utf8ByteSize),
    ("prefix_kept", .bool (pfx.toList.isPrefixOf key.toList)), ("lower_hex", .bool lowerHex)]

def policyView : Remote.ExpiryPolicy → Value
  | .never => Value.ofFields [("kind", .str "never")]
  | .blocking w => Value.ofFields [("kind", .str "blocking"), ("ms", .ofNat w)]
  | .background w => Value.ofFields [("kind", .str "background"), ("ms", .ofNat w)]

def readStamp (v : Value) : Decode Remote.Stamp :=
  match v with
  | .str "force_expired" => .ok .forceExpired
  | .str "weak_expired" => .ok .weakExpired
  | _ =>
    match (v.field? "at").bind Value.asI64? with
    | some ms => .ok (.since ms)
    | none => .error "stamp must be \"force_expired\", \"weak_expired\" or \x7b\"at\": n\x7d"

/-- `freshness`: what a read does under a policy, a stamp and a time. -/
def freshnessInfo (cmd : Value) : Decode Value := do
  let policy := Remote.ExpiryPolicy.ofMillis (← i64 cmd "expiry_ms")
  let stamp ← readStamp (← need cmd "stamp")
  let now ← i64 cmd "now"
  return Value.ofFields [("policy", policyView policy), ("stamp", .str stamp.render),
    ("freshness", .str (policy.freshness stamp now).render)]

def flusherOptionsView (s : Settings) : Value :=
  Value.ofFields [("delay_ms", .ofNat s.flusher.delayMs),
    ("max_pending", .ofNat (max s.flusher.maxPending 1)), ("period_ms", .ofNat s.flusher.periodMs),
    ("retry_limit", .ofNat s.flusher.retryLimit),
    ("drain_attempts", .ofNat s.flusher.drainAttempts),
    ("oom_backoff_ms", .ofNat s.flusher.oomBackoffMs), ("dedup_in_flight", .bool false)]

def readSettings (v : Value) : Decode Settings :=
  match Settings.ofJson v with
  | .ok s => .ok s
  | .error _ => .error "config does not deserialize"

/-- `config`: read settings from an object, check them and show what they imply. -/
def settingsInfo (cmd : Value) : Decode Value := do
  let s ← readSettings (← need cmd "config")
  let validation := match s.validate with
    | .ok () => Value.null
    | .error f => faultAnswer f
  return Value.ofFields [("validate", validation), ("config", s.toJson),
    ("idle_timeout_ms", match s.idleTimeout? with | some n => .ofNat n | none => .null),
    ("flusher_options", flusherOptionsView s),
    ("expiry_policy", policyView (Remote.ExpiryPolicy.ofMillis s.proxy.expiryMs))]

/-- A time given as RFC 3339 text or milliseconds since the epoch. A number that is not a
whole number of milliseconds within the range of times is out of range. -/
def readInstant (v : Value) : Decode Instant :=
  match v with
  | .str s =>
    match Instant.parse? s with
    | some t => .ok t
    | none => .error "bad RFC 3339 time"
  | .num _ =>
    match v.asI64?.bind Instant.ofMillis? with
    | some t => .ok t
    | none => .error "time out of range"
  | _ => .error "time must be a string or integer"

def instantOpt (cmd : Value) (name : String) : Decode (Option Instant) :=
  match present? cmd name with
  | some v => some <$> readInstant v
  | none => .ok none

def readFilter (v : Value) : Decode Filter := do
  match ← str v "type" with
  | "all" => return .all
  | "ids" => return .ids (← strList v "keys")
  | "prefix" => return .pre (← str v "prefix")
  | "range" => return .range (← strOpt v "from") (← strOpt v "to")
  | "modified" => return .modified (← instantOpt v "after") (← instantOpt v "before")
  | "field_eq" => return .fieldEq (← str v "name") (← need v "value")
  | other => throw ("unknown filter " ++ other)

def readQuery (v : Value) : Decode Query := do
  return { kind := ← str v "kind", filter := ← readFilter (← need v "filter"),
           limit := ← (u64Opt v "limit").mapError fun _ => "limit" }

def checkView (r : Outcome Unit) : Value :=
  match r with
  | .ok () => .null
  | .error f => faultAnswer f

/-- `query_info`: a query's parts and whether it is valid. -/
def queryInfo (cmd : Value) : Decode Value := do
  let q ← readQuery (← need cmd "query")
  return Value.ofFields [("kind", .str q.kind),
    ("limit", match q.limit with | some n => .ofNat n | none => .null),
    ("filter", .str q.filter.name), ("validate", checkView q.validate)]

/-- `query_field_eq`: a validated field-equality query. -/
def queryFieldEq (cmd : Value) : Decode Value := do
  let built := Query.fieldEq (← str cmd "kind") (← str cmd "name") (← need cmd "value")
  return match built with
    | .ok q => Value.ofFields [("kind", .str q.kind), ("limit", .null)]
    | .error f => faultAnswer f

def readIdentity (name : String) (v : Value) : Except Value Identity :=
  match v with
  | .str s =>
    match Identity.parse s with
    | .ok id => .ok id
    | .error e => .error (identityErrorAnswer e)
  | _ => .error (badInput ("field " ++ name ++ " must be a string"))

def identityField (cmd : Value) (name : String) : Except Value Identity :=
  match cmd.field? name with
  | some v => readIdentity name v
  | none => .error (badInput ("missing field " ++ name))

def lift {α : Type} (d : Decode α) : Except Value α :=
  match d with
  | .ok a => .ok a
  | .error e => .error (badInput e)

def applyStamp (r : Record) (spec : Value) : Except Value Record := do
  let id ← identityField spec "id"
  let version ← lift (str spec "version")
  let modified ← lift (need spec "modified" >>= readInstant)
  let owner ← lift (strOpt spec "owner")
  return r.stamp id (Version.Lineage.parse version) modified owner

/-- `query`: whether a query selects a record built from fields and a stamp. -/
def queryMatch (cmd : Value) : Decode Value := do
  let q ← readQuery (← need cmd "query")
  let answer : Except Value Value := do
    let id ← identityField cmd "id"
    let fields := (cmd.field? "fields").getD (.obj [])
    let r ← match Record.ofJson fields with
      | .ok r => pure r
      | .error f => throw (faultAnswer f)
    let r ← match present? cmd "stamp" with
      | some spec => applyStamp r spec
      | none => pure r
    return Value.ofFields [("validate", checkView q.validate), ("matches", .bool (q.selects id r))]
  return match answer with
    | .ok v => v
    | .error v => v

def recordView (r : Record) : Value :=
  Value.ofFields [("record", r.toJsonAll), ("fields", .arr (r.userFields.map fun kv => .str kv.1)),
    ("id", Value.ofOption (r.id?.map Identity.render)), ("version", .str r.version.render),
    ("modified_ms", match r.modified? with | some t => .ofInt t.toMillis | none => .null),
    ("owner", Value.ofOption r.owner?), ("json", r.toJson)]

def recordStep (r : Record) (step : Value) : Record × Value :=
  let run : Except Value (Record × Value) := do
    match ← lift (str step "do") with
    | "from_json" =>
      match Record.ofJson (← lift (need step "value")) with
      | .ok r' => return (r', resultAnswer (recordView r'))
      | .error f => return (r, faultAnswer f)
    | "set" | "with" =>
      match r.set (← lift (str step "name")) (← lift (need step "value")) with
      | .ok r' => return (r', resultAnswer (recordView r'))
      | .error f => return (r, faultAnswer f)
    | "stamp" =>
      let r' ← applyStamp r step
      return (r', resultAnswer (recordView r'))
    | "remove" =>
      let (r', old) := r.remove (← lift (str step "name"))
      return (r', resultAnswer (Value.ofFields [("removed", old.getD .null)]))
    | "get" =>
      return (r, resultAnswer (Value.ofFields [("value", (r.get? (← lift (str step "name"))).getD .null)]))
    | "is_reserved" => return (r, resultAnswer (.bool (Record.isReserved (← lift (str step "name")))))
    | "modified_text" =>
      return (r, resultAnswer (Value.ofOption (r.modified?.map Instant.render)))
    | other => throw (badInput ("unknown record step " ++ other))
  match run with
  | .ok res => res
  | .error v => (r, v)

def runSteps {σ : Type} (start : σ) (steps : List Value) (step : σ → Value → σ × Value) :
    σ × List Value :=
  let (s, answers) := steps.foldl (fun (acc : σ × List Value) v =>
    let (s, a) := step acc.1 v
    (s, a :: acc.2)) (start, [])
  (s, answers.reverse)

/-- `record`: steps on one record. -/
def recordSteps (cmd : Value) : Decode Value := do
  return .arr (runSteps Record.empty (← arr cmd "steps") recordStep).2

/-- `mapper`: a JSON object through the record codec and back. -/
def mapperRun (cmd : Value) : Decode Value := do
  let answer : Except Value Value := do
    let id ← identityField cmd "id"
    let value ← lift (need cmd "value")
    let encoded ← match Record.ofJson value with
      | .ok r => pure r
      | .error f => throw (faultAnswer f)
    let stamped ← match present? cmd "stamp" with
      | some spec => applyStamp encoded spec
      | none => pure encoded
    let _ := id
    return Value.ofFields [("encoded", encoded.toJsonAll), ("decoded", stamped.toJson)]
  return match answer with
    | .ok v => v
    | .error v => v

end Stowage.Console
