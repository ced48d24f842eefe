import Stowage.Soak.Report
import Stowage.Settings.Load
import Stowage.Json.Write
import Stowage.Settings.Json
/-!
The command line of the soak program.

Options are `--name value`, `--name=value`, `-c value`, `-cvalue` or `-c=value`; flags take no
value. An option given twice, an unknown argument, a missing or malformed value stop the program
with status 2 and a message naming the option as `--name <VALUE>`; messages about unknown or
repeated arguments add the usage, which lists the options used so far (or `[OPTIONS]` when there
are none), and an unknown long option names the most similar known one when the two are alike
enough (Jaro similarity above 0.7). `--help` and `--version` print their text and stop with
status 0, unless an earlier argument was wrong. The configuration file may also be named by the
variable `PERSISTIO_CONFIG`.

A run loads the settings from the file and the `PERSISTIO__` variables and prints the report as
indented JSON. A settings failure stops with status 1 and the message under
`failed to load configuration`, indented; so does a failed or unhealthy run. A crash while
loading the settings stops the program with status 101.
-/
namespace Stowage.Soak.Cli

open Stowage.Json
open Stowage.Settings

/-- What an option's value must be. -/
inductive ValueKind where
  /-- A size. -/
  | size
  /-- A 64-bit unsigned number. -/
  | word
  /-- A non-empty path. -/
  | path
  /-- Any text. -/
  | text
  deriving DecidableEq, Inhabited

/-- What giving an option does. -/
inductive Action where
  /-- Set a value, shown as `<placeholder>`. -/
  | value (placeholder : String) (kind : ValueKind)
  /-- Turn a switch on. -/
  | flag
  | help
  | version
  deriving DecidableEq, Inhabited

/-- An option of the command line. -/
structure OptionSpec where
  long : String
  short : Option Char := none
  action : Action
  about : String
  default : Option String := none
  env : Option String := none
  deriving Inhabited

/-- The program's name. -/
def programName : String := "persistio-soak"

/-- The program's version. -/
def programVersion : String := "0.1.0"

/-- What the program is. -/
def programAbout : String := "Multi-node soak test for the persistio engine"

/-- The variable that may name the configuration file. -/
def configVariable : String := "PERSISTIO_CONFIG"

/-- The options, in the order help lists them. -/
def specs : List OptionSpec := [
  { long := "config", short := some 'c', action := .value "CONFIG" .path,
    about := "Configuration file path", env := some configVariable },
  { long := "nodes", action := .value "NODES" .size,
    about := "Simulated nodes sharing one backend", default := some "3" },
  { long := "accounts", action := .value "ACCOUNTS" .size,
    about := "Accounts created before the run", default := some "64" },
  { long := "operations", action := .value "OPERATIONS" .size,
    about := "Operations per node", default := some "5000" },
  { long := "quotes", action := .value "QUOTES" .size,
    about := "Remote quotes read through proxies", default := some "8" },
  { long := "seed", action := .value "SEED" .word, about := "Seed for a reproducible run" },
  { long := "json-logs", action := .flag, about := "Emit logs as JSON" },
  { long := "log-level", action := .value "LOG_LEVEL" .text, about := "Log level",
    default := some "info" },
  { long := "help", short := some 'h', action := .help, about := "Print help" },
  { long := "version", short := some 'V', action := .version, about := "Print version" }]

/-- An option as messages name it: `--nodes <NODES>`, `--json-logs`. -/
def OptionSpec.display (o : OptionSpec) : String :=
  "--" ++ o.long ++ match o.action with
    | .value p _ => " <" ++ p ++ ">"
    | _ => ""

/-- The usage line, listing the options used so far. -/
def usage (used : List OptionSpec) : String :=
  if used.isEmpty then "Usage: " ++ programName ++ " [OPTIONS]"
  else "Usage: " ++ programName ++ String.join (used.map fun o => " " ++ o.display)

/-- The help text; the configuration variable's value, if set, is shown. -/
def helpText (env : List (String × String)) : String :=
  let left := fun (o : OptionSpec) =>
    (match o.short with
      | some c => "  -" ++ c.toString ++ ", "
      | none => "      ") ++ o.display
  let width := (specs.map fun o => (left o).length).foldl max 0 + 2
  let line := fun (o : OptionSpec) =>
    let envText := match o.env with
      | some name => " [env: " ++ name ++ "=" ++ ((env.lookup name).getD "") ++ "]"
      | none => ""
    let defaultText := match o.default with
      | some d => " [default: " ++ d ++ "]"
      | none => ""
    let l := left o
    l ++ String.ofList (List.replicate (width - l.length) ' ') ++ o.about ++ envText ++
      defaultText ++ "\n"
  programAbout ++ "\n\n" ++ usage [] ++ "\n\nOptions:\n" ++ String.join (specs.map line)

/-- The version text. -/
def versionText : String := programName ++ " " ++ programVersion ++ "\n"

/-- How the program ends: its status and what it wrote to its two outputs. -/
structure Exit where
  status : Nat
  stdout : String
  stderr : String
  deriving Inhabited

/-- A command-line error: status 2, the message on the error output. -/
def usageError (message : String) (withUsage : Option (List OptionSpec)) : Exit :=
  let usageText := match withUsage with
    | some used => "\n\n" ++ usage used
    | none => ""
  ⟨2, "", "error: " ++ message ++ usageText ++ "\n\nFor more information, try '--help'.\n"⟩

/-- Read an unsigned number below `2^64`, the way the standard number reader does. -/
def readUnsigned (t : String) : Except String Nat :=
  let digits := match t.toList with
    | '+' :: rest => rest
    | cs => cs
  if t.isEmpty then .error "cannot parse integer from empty string"
  else if digits.isEmpty then .error "invalid digit found in string"
  else
    digits.foldlM (fun n c =>
      if !c.isDigit then .error "invalid digit found in string"
      else
        let m := n * 10 + (c.toNat - 48)
        if m ≥ Nat.pow 2 64 then .error "number too large to fit in target type" else .ok m) 0

/-- Check a value for an option. -/
def checkValue (o : OptionSpec) (kind : ValueKind) (v : String) : Except Exit Unit :=
  let invalid := fun (why : String) =>
    Except.error (usageError ("invalid value '" ++ v ++ "' for '" ++ o.display ++ "': " ++ why) none)
  match kind with
  | .size | .word =>
    match readUnsigned v with
    | .ok _ => .ok ()
    | .error why => invalid why
  | .path =>
    if v.isEmpty then
      .error (usageError ("a value is required for '" ++ o.display ++ "' but none was supplied") none)
    else .ok ()
  | .text => .ok ()

/-- How alike two words are, from 0 to 1: the Jaro similarity. -/
def jaro (a b : String) : Float :=
  let xs := a.toList.toArray
  let ys := b.toList.toArray
  if xs.isEmpty && ys.isEmpty then 1.0
  else if xs.isEmpty || ys.isEmpty then 0.0
  else
    let range := max xs.size ys.size / 2 - 1
    let (aFlags, bFlags, hits) := (List.range xs.size).foldl (fun (af, bf, m) i =>
      let lo := i - range
      let hi := min ys.size (i + range + 1)
      match (List.range hi).find? (fun j => lo ≤ j && xs[i]! == ys[j]! && !bf[j]!) with
      | some j => (af.set! i true, bf.set! j true, m + 1)
      | none => (af, bf, m)) (Array.replicate xs.size false, Array.replicate ys.size false, 0)
    if hits = 0 then 0.0
    else
      let firsts := (List.range xs.size).filter (aFlags[·]!) |>.map (xs[·]!)
      let seconds := (List.range ys.size).filter (bFlags[·]!) |>.map (ys[·]!)
      let transpositions := ((firsts.zip seconds).filter fun (x, y) => x != y).length / 2
      let m := Float.ofNat hits
      (m / Float.ofNat xs.size + m / Float.ofNat ys.size +
        Float.ofNat (hits - transpositions) / m) / 3.0

/-- The known long option most like `name`, if one is alike enough; of equally alike ones the
last listed. -/
def similar? (name : String) : Option OptionSpec :=
  specs.foldl (fun best o =>
    let score := jaro name o.long
    if score > 0.7 && (best.all fun (s, _) => score ≥ s) then some (score, o) else best)
    (none : Option (Float × OptionSpec)) |>.map (·.2)

/-- The command line as read so far: the options given, in order, each with its value, and an
option still waiting for its value. -/
structure Reading where
  given : List (OptionSpec × String) := []
  pending : Option OptionSpec := none
  afterDashes : Bool := false
  deriving Inhabited

namespace Reading

/-- The options given so far. -/
def used (r : Reading) : List OptionSpec := r.given.map (·.1)

/-- Whether an option was given. -/
def has (r : Reading) (o : OptionSpec) : Bool := r.given.any (·.1.long == o.long)

/-- An unknown argument. -/
def unknown (r : Reading) (arg : String) : Exit :=
  usageError ("unexpected argument '" ++ arg ++ "' found") (some r.used)

/-- Give an option its values (none when it is waiting for one). -/
def give (r : Reading) (env : List (String × String)) (o : OptionSpec) (values : List String) :
    Except Exit Reading := do
  match o.action with
  | .help => throw ⟨0, helpText env, ""⟩
  | .version => throw ⟨0, versionText, ""⟩
  | .flag =>
    if r.has o then throw (usageError ("the argument '" ++ o.display ++
      "' cannot be used multiple times") (some []))
    return { r with given := r.given ++ [(o, "true")] }
  | .value _ kind =>
    match values with
    | [] => throw (usageError ("a value is required for '" ++ o.display ++
        "' but none was supplied") none)
    | v :: _ =>
      if r.has o then throw (usageError ("the argument '" ++ o.display ++
        "' cannot be used multiple times") (some []))
      checkValue o kind v
      return { r with given := r.given ++ [(o, v)] }

/-- Settle an option waiting for a value: it gets none. -/
def settle (r : Reading) (env : List (String × String)) : Except Exit Reading :=
  match r.pending with
  | some o =>
    let waiting : Reading := { r with pending := none }
    waiting.give env o []
  | none => .ok r

/-- Give an option, settling a waiting one first. -/
def apply (r : Reading) (env : List (String × String)) (o : OptionSpec) (values : List String) :
    Except Exit Reading := do
  let r ← r.settle env
  r.give env o values

/-- An option that takes a value with none attached: settle a waiting one, then wait. -/
def await (r : Reading) (env : List (String × String)) (o : OptionSpec) : Except Exit Reading := do
  let r ← r.settle env
  return { r with pending := some o }

/-- Read `--name` or `--name=value`. -/
def readLong (r : Reading) (env : List (String × String)) (body : String) :
    Except Exit Reading :=
  let name := (body.splitOn "=").headD ""
  let attached : Option String :=
    if body.contains '=' then some (String.ofList (body.toList.drop (name.length + 1))) else none
  match specs.find? (·.long == name) with
  | some o =>
    match o.action, attached with
    | .value .., some v => r.apply env o [v]
    | .value .., none => r.await env o
    | _, some v =>
      .error (usageError ("unexpected value '" ++ v ++ "' for '" ++ o.display ++
        "' found; no more were expected") (some (r.used ++ [o])))
    | _, none => r.apply env o []
  | none =>
    match similar? name with
    | some o =>
      let used := if r.has o then r.used else r.used ++ [o]
      .error (usageError ("unexpected argument '--" ++ name ++ "' found\n\n  tip: a similar " ++
        "argument exists: '--" ++ o.long ++ "'") (some used))
    | none => .error (r.unknown ("--" ++ name))

/-- Read a cluster of short options, such as `-hV` or `-cfile`. -/
def readShorts (env : List (String × String)) : List Char → Reading → Except Exit Reading
  | [], r => .ok r
  | c :: rest, r =>
    match specs.find? (·.short == some c) with
    | none => .error (r.unknown ("-" ++ c.toString))
    | some o =>
      match o.action with
      | .value .. =>
        if rest.isEmpty then r.await env o
        else
          let v := match rest with
            | '=' :: more => String.ofList more
            | _ => String.ofList rest
          r.apply env o [v]
      | _ => do
        let r ← r.apply env o []
        readShorts env rest r

/-- Read the arguments. -/
def readAll (env : List (String × String)) : List String → Reading → Except Exit Reading
  | [], r => r.settle env
  | a :: rest, r => do
    let r ←
      if r.afterDashes then .error (r.unknown a)
      else if a == "--" then pure { r with afterDashes := true }
      else if a.startsWith "--" then r.readLong env (String.ofList (a.toList.drop 2))
      else if a.startsWith "-" && a.length > 1 then readShorts env (a.toList.drop 1) r
      else
        match r.pending with
        | some o =>
          let waiting : Reading := { r with pending := none }
          waiting.apply env o [a]
        | none => .error (r.unknown a)
    readAll env rest r

end Reading

/-- What the command line asks for. -/
structure Request where
  config : Option String
  nodes : Nat
  accounts : Nat
  operations : Nat
  quotes : Nat
  seed : Option Nat
  jsonLogs : Bool
  logLevel : String
  deriving Inhabited

/-- Read the command line, with the environment for the configuration variable; help, version
and errors end the program. -/
def request (args : List String) (env : List (String × String)) : Except Exit Request := do
  let r ← Reading.readAll env args {}
  let configSpec := specs.headD default
  let fromEnv := if r.has configSpec then none else env.lookup configVariable
  if let some v := fromEnv then checkValue configSpec .path v
  let given := r.given ++ (fromEnv.map fun v => (configSpec, v)).toList
  let value := fun (name : String) =>
    match given.find? (·.1.long == name) with
    | some (_, v) => some v
    | none => (specs.find? (·.long == name)).bind (·.default)
  let number := fun (name : String) => ((value name).bind fun v => (readUnsigned v).toOption).getD 0
  return {
    config := value "config"
    nodes := number "nodes"
    accounts := number "accounts"
    operations := number "operations"
    quotes := number "quotes"
    seed := (value "seed").bind fun v => (readUnsigned v).toOption
    jsonLogs := (value "json-logs").isSome
    logLevel := (value "log-level").getD "info" }

/-- A failure as the program reports it: `Error: ` and the message, then each cause indented
under `Caused by:`. -/
def failure (message : String) (cause : Option String) : String :=
  let causeText := match cause with
    | some c => "\n\nCaused by:\n    " ++ c.replace "\n" "\n    "
    | none => ""
  "Error: " ++ message ++ causeText ++ "\n"

/-- How the program ends when loading its settings crashes: status 101, and the crash's
message on the error output. -/
def crashed (message : String) : Exit :=
  ⟨101, "", "thread 'main' panicked:\n" ++ message ++
    "\nnote: run with RUST_BACKTRACE=1 environment variable to display a backtrace\n"⟩

/-- The settings file the request names on a disk of files, each a path and a text. -/
def fileSource (config : Option String) (disk : List (String × String)) : FileSource :=
  match config with
  | none => .none
  | some path => FileSource.locate disk path

/-- Carry out a request, with the environment and the settings file it names. -/
def execute (req : Request) (env : List (String × String)) (file : FileSource) : Exit :=
  match Settings.load file env with
  | .error (.fault f) => ⟨1, "", failure "failed to load configuration" (some f.message)⟩
  | .error (.crash m) => crashed m
  | .ok s =>
    let options : SoakOptions := ⟨req.nodes, req.accounts, req.operations, req.quotes,
      (req.seed.getD 0).toUInt64⟩
    match Soak.run s options with
    | .error f => ⟨1, "", failure f.message none⟩
    | .ok report =>
      let out := report.toJson.pretty ++ "\n"
      if report.isHealthy then ⟨0, out, ""⟩
      else ⟨1, out, failure (toString report.capViolations ++
        " records exceeded the same-node run cap") none⟩

/-- Run the program on its arguments, its environment and a disk of files, each a path and a
text. -/
def run (args : List String) (env : List (String × String)) (disk : List (String × String)) :
    Exit :=
  match request args env with
  | .error e => e
  | .ok req => execute req env (fileSource req.config disk)

/-- The variables that can set settings, by their upper-case names. -/
def settingVariables : List String :=
  match (({} : Settings).toJson) with
  | .obj sections => sections.flatMap fun (part, v) =>
    match v with
    | .obj fields => fields.map fun (field, _) =>
      ("PERSISTIO__" ++ part ++ "__" ++ field).toUpper
    | _ => []
  | _ => []

end Stowage.Soak.Cli
