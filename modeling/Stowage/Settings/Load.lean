import Stowage.Settings.Read
import Stowage.Json.Read
import Stowage.Formats.Toml
import Stowage.Formats.Yaml
import Stowage.Formats.Ini
import Stowage.Formats.Json5
/-!
Loading settings from a file and the environment.

A file is read by the format its extension names: `toml`, `json`, `yaml` or `yml`, `ini` and
`json5`. Every key of a file is taken in lower case; of keys that become one, the later wins,
taking the keys of TOML, JSON and JSON5 tables in sorted order and those of YAML and INI files in
the order they are written. The file's top-level keys are key paths, laid over an empty tree in
turn. Environment
variables whose names start with `PERSISTIO__` in any case are laid over that: the rest of the
name, in lower case and with `__` read as `.`, is the key path, and the value is text. The
result is read as settings, which are then checked.

Every failure is a configuration fault, except a crash of the loader: a list index out of
range in a key path, or a YAML key that is neither text nor an integer. A file's own failure is
followed by where the file is.
-/
namespace Stowage.Settings

open Stowage.Json

/-- File formats settings can be written in. -/
inductive FileFormat where
  | toml
  | json
  | yaml
  | ini
  | json5
  deriving DecidableEq, Repr, Inhabited

/-- The format a file extension names. -/
def FileFormat.ofExtension? : String → Option FileFormat
  | "toml" => some .toml
  | "json" => some .json
  | "yaml" | "yml" => some .yaml
  | "ini" => some .ini
  | "json5" => some .json5
  | _ => none

mutual

/-- A JSON value as a raw value: integers that do not fit 64 signed bits become doubles. -/
def Raw.ofJson (origin : Origin) : Value → Raw
  | .null => .nil origin
  | .bool b => .bool origin b
  | .num (.int i) => if i < Int.pow 2 63 then .int origin i else .float origin (Float.ofInt i)
  | .num (.float f) => .float origin f
  | .str s => .str origin s
  | .arr items => .list origin (Raw.ofJsonItems origin items)
  | .obj fields => .table origin (Raw.ofJsonFields origin fields)

/-- JSON array items as raw values. -/
def Raw.ofJsonItems (origin : Origin) : List Value → List Raw
  | [] => []
  | v :: rest => Raw.ofJson origin v :: Raw.ofJsonItems origin rest

/-- JSON object fields as raw entries. -/
def Raw.ofJsonFields (origin : Origin) : List (String × Value) → List (String × Raw)
  | [] => []
  | (k, v) :: rest => (k, Raw.ofJson origin v) :: Raw.ofJsonFields origin rest

end

/-- The entries of a document, which must be a table. -/
def rootEntries (origin : Origin) (r : Raw) : Except String (List (String × Raw)) :=
  match r with
  | .table _ es => .ok es
  | other => .error (LoadError.mismatch origin other.found "a map" none).text

/-- Keys of sorted tables in lower case. -/
def lowerSorted (es : List (String × Raw)) : List (String × Raw) :=
  Raw.gatherLowered true (Raw.lowerKeysEntries true es)

/-- Read a file's text in a format into its top-level entries, keys in lower case; a refusal is
the cause's text, said to be in the file. -/
def readFormat (format : FileFormat) (origin : Origin) (text : String) :
    Except LoadError (List (String × Raw)) :=
  let refused := fun (cause : String) => LoadError.fileParse cause origin
  match format with
  | .json =>
    match readValue text with
    | .ok v => (lowerSorted <$> rootEntries origin (Raw.ofJson origin v)).mapError refused
    | .error e => .error (refused (e.message text))
  | .toml => (lowerSorted <$> Formats.Toml.read origin text).mapError refused
  | .yaml =>
    match Formats.Yaml.read origin text with
    | .ok r => (rootEntries origin r).mapError refused
    | .error (.refused cause) => .error (refused cause)
    | .error (.crashed m) => .error (.crash m)
  | .ini =>
    ((fun es => Raw.gatherLowered false (Raw.lowerKeysEntries false es)) <$>
      Formats.Ini.read origin text).mapError refused
  | .json5 =>
    (lowerSorted <$> (Formats.Json5.read origin text >>= rootEntries origin)).mapError refused

/-- Where the file part of settings comes from. -/
inductive FileSource where
  /-- No file. -/
  | none
  /-- A file that is not there, by the name it was given. -/
  | missing (name : String)
  /-- A file's name in messages, its extension and its text. -/
  | present (name extension text : String)
  deriving Inhabited

/-- The extension of a path: what follows the last dot of its last part, or nothing when that
part is `..` or its only dot starts it (a hidden file's name is all stem). -/
def extensionOf (path : String) : String :=
  let name := (path.splitOn "/").getLast?.getD ""
  if name == ".." then "" else
    match name.splitOn "." with
    | [] | [_] => ""
    | parts => if parts.dropLast == [""] then "" else parts.getLast?.getD ""

/-- The paths a settings path may name, in the order they are tried: the path itself, then the
path with each extension of a known format added to it (an extension it already has is kept, so
`a.json` may be `a.json.toml` but never `a.toml`). -/
def candidatePaths (path : String) : List String :=
  path :: ["toml", "json", "yaml", "yml", "ini", "json5"].map fun ext => path ++ "." ++ ext

/-- The source a settings path names, given the first candidate path that holds a file and its
text: that file, read by its own extension, or a missing file by the name it was given. -/
def FileSource.ofFound (path : String) : Option (String × String) → FileSource
  | some (found, text) => .present found (extensionOf found) text
  | Option.none => .missing path

/-- The source a settings path names on a disk of files, each a path and a text. -/
def FileSource.locate (disk : List (String × String)) (path : String) : FileSource :=
  FileSource.ofFound path ((candidatePaths path).findSome? fun p => (disk.lookup p).map (p, ·))

/-- The top-level entries a file source gives. -/
def FileSource.entries : FileSource → Except LoadError (List (String × Raw))
  | .none => .ok []
  | .missing name => .error (.message ("configuration file \"" ++ name ++ "\" not found"))
  | .present name extension text =>
    match FileFormat.ofExtension? extension with
    | .none => .error (.message ("configuration file \"" ++ name ++
        "\" is not of a registered file format"))
    | .some format => readFormat format (some name) text

/-- The prefix of variables that set settings, in lower case. -/
def envPrefix : String := "persistio__"

/-- The entries environment variables give: the key path of each variable whose lower-case name
starts with the prefix, and its value as text. -/
def envEntries (vars : List (String × String)) : List (String × Raw) :=
  vars.filterMap fun (name, value) =>
    let lower := Raw.lowerKey name
    if lower.startsWith envPrefix then
      some ((String.ofList (lower.toList.drop envPrefix.length)).replace "__" ".",
        .str (some "the environment") value)
    else none

/-- Lay entries over a tree, each key read as a key path; a crash is its message. -/
def layEntries (root : Raw) (es : List (String × Raw)) : Except LoadError Raw :=
  (es.foldlM (fun (r : Raw) e => r.set e.1 e.2) root).mapError LoadError.crash

/-- How loading settings fails: with a fault, or by a crash of the loader with its message. -/
inductive LoadStop where
  /-- The settings could not be loaded or are not valid. -/
  | fault (f : Fault)
  /-- The loader stopped the program with this message. -/
  | crash (message : String)

/-- Load settings from a file and environment variables, and check them. -/
def load (file : FileSource) (vars : List (String × String)) : Except LoadStop Settings :=
  let loaded : Except LoadError Settings := do
    let es ← file.entries
    ofRaw (← layEntries (← layEntries Raw.emptyTable es) (envEntries vars))
  match loaded with
  | .error (.crash m) => .error (.crash m)
  | .error e => .error (.fault (.configuration e.text))
  | .ok s =>
    match s.validate with
    | .ok () => .ok s
    | .error f => .error (.fault f)

end Stowage.Settings
