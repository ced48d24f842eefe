import Stowage.Settings.Raw
import Stowage.Decimal.Nearest
import Stowage.Text.Quoted
/-!
YAML settings files.

A file holds documents: none gives an empty table, one gives its root, more are refused. A
document is a block node: a block mapping (`key: value` lines at one column), a block sequence
(`- item` lines at one column), a flow collection (`[a, b]`, `{a: 1}`), a quoted scalar
(`'…'` with `''` for a quote, `"…"` with backslash escapes), a block scalar (`|` keeps line
breaks, `>` folds them; `-` strips the final break, `+` keeps all) or a plain scalar, which may
run over lines indented deeper than its parent. Nodes may carry an anchor (`&a`) that a later
alias (`*a`) repeats, and a tag (`!!int`, `!!str`, …) that changes how a plain scalar is read.

A plain scalar is read as `~` or `null`, `true`, `false`, a 64-bit integer (decimal, `0x` hex,
`0o` octal, with `+` allowed), a float in the usual syntax or `.inf`/`.nan` spelled in YAML's
way, or else as text. A float that does not also read in the usual syntax (`.inf`) is refused
when the value is taken. A key given twice in one mapping is refused where the second value
ends: at the start of a scalar or an alias, at the closing bracket of a flow collection, and at
what follows a block collection. A failure is reported with its character position, line (from
1) and column (from 1).

As settings, mapping keys are taken in lower case, integers written out; a key of any other
kind crashes the reader.
-/
namespace Stowage.Formats.Yaml

open Stowage.Settings

/-- A value as a YAML document gives it. `invalid` is a scalar its tag does not accept. -/
inductive Node where
  | null
  | bool (b : Bool)
  | int (i : Int)
  | real (text : String)
  | str (s : String)
  | invalid
  | seq (items : List Node)
  | map (entries : List (Node × Node))
  deriving Inhabited

/-- Why a file could not be read: where, as a character position, and what. -/
structure Failure where
  pos : Nat
  message : String

/-- A tag: its handle (`!!`, `!` or empty) and its suffix. -/
structure Tag where
  handle : String
  suffix : String

/-- What reading keeps: the values anchored so far, the latest first, and where the last node
read ended, as a repeated key is reported. -/
structure ReadState where
  /-- The anchored values, the latest first. -/
  anchors : List (String × Node) := []
  /-- Where the last node read ended. -/
  mark : Nat := 0

/-- Reading keeps a `ReadState`. -/
abbrev Reader := StateT ReadState (Except Failure)

/-- Note where the node just read ended. -/
def endAt (pos : Nat) : Reader Unit := modify fun st => { st with mark := pos }

/-- Fail at a position. -/
def fail {α : Type} (pos : Nat) (message : String) : Reader α := throw ⟨pos, message⟩

/-- Spaces and tabs. -/
def isBlank (c : Char) : Bool := c == ' ' || c == '\t'

/-- Line breaks. -/
def isBreak (c : Char) : Bool := c == '\n' || c == '\r'

/-- Characters that open or close flow collections or separate their entries. -/
def isFlowIndicator (c : Char) : Bool :=
  c == ',' || c == '[' || c == ']' || c == '{' || c == '}'

/-- A 64-bit signed integer in the given base, with an optional sign. -/
def signedInt? (base : Nat) (t : String) : Option Int :=
  let (negative, ds) := match t.toList with
    | '-' :: rest => (true, rest)
    | '+' :: rest => (false, rest)
    | cs => (false, cs)
  let value := fun (c : Char) =>
    if c.isDigit then c.toNat - 48
    else if 'a' ≤ c && c ≤ 'z' then c.toNat - 87
    else if 'A' ≤ c && c ≤ 'Z' then c.toNat - 55
    else 99
  if ds.isEmpty || !ds.all (fun c => value c < base) then none
  else
    let n : Int := ds.foldl (fun n c => n * base + value c) 0
    let v := if negative then -n else n
    if -Int.pow 2 63 ≤ v && v < Int.pow 2 63 then some v else none

/-- Whether YAML's float reading accepts the text: its spellings of infinity and not-a-number,
or the usual syntax. -/
def yamlFloat (t : String) : Bool :=
  [".inf", ".Inf", ".INF", "+.inf", "+.Inf", "+.INF", "-.inf", "-.Inf", "-.INF", ".nan", "NaN",
    ".NAN"].contains t || (Decimal.standardFloat? t).isSome

/-- The value of an untagged plain scalar. -/
def resolvePlain (t : String) : Node :=
  let prefixed : Option Node :=
    if t.startsWith "0x" then (signedInt? 16 (t.drop 2).toString).map .int
    else if t.startsWith "0o" then (signedInt? 8 (t.drop 2).toString).map .int
    else if t.startsWith "+" then (signedInt? 10 (t.drop 1).toString).map .int
    else none
  match prefixed with
  | some n => n
  | none =>
    if t == "~" || t == "null" then .null
    else if t == "true" then .bool true
    else if t == "false" then .bool false
    else match signedInt? 10 t with
      | some i => .int i
      | none => if yamlFloat t then .real t else .str t

/-- The value of a plain scalar under a tag: the core tags check the text, others keep it. -/
def resolveTagged (tag : Tag) (t : String) : Node :=
  if tag.handle == "!!" then
    match tag.suffix with
    | "bool" => if t == "true" then .bool true else if t == "false" then .bool false else .invalid
    | "int" => match signedInt? 10 t with
      | some i => .int i
      | none => .invalid
    | "float" => if yamlFloat t then .real t else .invalid
    | "null" => if t == "~" || t == "null" then .null else .invalid
    | _ => .str t
  else .str t

/-- The value of a scalar: quoted ones are text, plain ones are read by their tag. -/
def resolve (tag : Option Tag) (plain : Bool) (t : String) : Node :=
  if !plain then .str t
  else match tag with
    | some g => resolveTagged g t
    | none => resolvePlain t

/-- The character a `\x`, `\u` or `\U` escape names. -/
def hexChar? (ds : List Char) : Option Char :=
  let ok := ds.all fun c => c.isDigit || ('a' ≤ c && c ≤ 'f') || ('A' ≤ c && c ≤ 'F')
  let v := ds.foldl (fun n c =>
    n * 16 + (if c.isDigit then c.toNat - 48 else if c ≤ 'F' then c.toNat - 55 else c.toNat - 87)) 0
  if ok && (v < 0xD800 || (0xDFFF < v && v ≤ 0x10FFFF)) then some (Char.ofNat v) else none

/-- The character a one-letter escape names. -/
def simpleEscape? : Char → Option Char
  | '0' => some '\x00'
  | 'a' => some '\x07'
  | 'b' => some '\x08'
  | 't' | '\t' => some '\t'
  | 'n' => some '\n'
  | 'v' => some '\x0b'
  | 'f' => some '\x0c'
  | 'r' => some '\r'
  | 'e' => some '\x1b'
  | ' ' => some ' '
  | '"' => some '"'
  | '/' => some '/'
  | '\\' => some '\\'
  | 'N' => some '\u0085'
  | '_' => some '\u00A0'
  | 'L' => some '\u2028'
  | 'P' => some '\u2029'
  | _ => none

/-- What a quoted scalar has read so far: the text, blanks not yet known to be kept, and how
many line breaks the current fold spans. -/
structure Folding where
  text : String := ""
  blanks : String := ""
  breaks : Nat := 0

namespace Folding

/-- Add content: first the pending fold (a space for one break, a break fewer otherwise), then
the pending blanks. -/
def put (f : Folding) (content : String) : Folding :=
  let folded := if f.breaks = 0 then "" else if f.breaks = 1 then " "
    else String.ofList (List.replicate (f.breaks - 1) '\n')
  { text := f.text ++ folded ++ f.blanks ++ content }

/-- A blank: dropped at the start of a line, else pending. -/
def blank (f : Folding) (c : Char) : Folding :=
  if f.breaks > 0 then f else { f with blanks := f.blanks.push c }

/-- A line break: pending blanks are dropped. -/
def lineBreak (f : Folding) : Folding := { f with blanks := "", breaks := f.breaks + 1 }

end Folding

section Reading

variable (s : Array Char)

/-- Whether position `i` holds `c`. -/
def isAt (i : Nat) (c : Char) : Bool := s[i]? == some c

/-- Whether position `i` is a blank, a line break or the end. -/
def blankOrEnd (i : Nat) : Bool :=
  match s[i]? with
  | none => true
  | some c => isBlank c || isBreak c

/-- The text between two positions. -/
def slice (i e : Nat) : String := String.ofList (s.extract i e).toList

/-- Skip spaces and tabs. -/
def skipInline (i : Nat) : Nat :=
  if h : i < s.size then if isBlank s[i] then skipInline (i + 1) else i else i
termination_by s.size - i

/-- The next line break at or after `i`, or the end. -/
def toBreak (i : Nat) : Nat :=
  if h : i < s.size then if isBreak s[i] then i else toBreak (i + 1) else i
termination_by s.size - i

/-- Skip blanks, line breaks and comments; `inComment` holds inside a comment. -/
def skipSpaceFrom (inComment : Bool) (i : Nat) : Nat :=
  if h : i < s.size then
    let c := s[i]
    if isBreak c then skipSpaceFrom false (i + 1)
    else if inComment || isBlank c then skipSpaceFrom inComment (i + 1)
    else if c == '#' then skipSpaceFrom true (i + 1)
    else i
  else i
termination_by s.size - i

/-- Skip blanks, line breaks and comments. -/
def skipSpace (i : Nat) : Nat := skipSpaceFrom s false i

/-- Skip blanks and line breaks, counting the line feeds. -/
def skipLines (i breaks : Nat) : Nat × Nat :=
  if h : i < s.size then
    let c := s[i]
    if isBlank c || c == '\r' then skipLines (i + 1) breaks
    else if c == '\n' then skipLines (i + 1) (breaks + 1)
    else (i, breaks)
  else (i, breaks)
termination_by s.size - i

/-- The start of the line holding position `i`. -/
def lineStart : Nat → Nat
  | 0 => 0
  | i + 1 => if isAt s i '\n' then i + 1 else lineStart i

/-- The column of a position, from 0. -/
def column (i : Nat) : Nat := i - lineStart s i

/-- Whether only blanks and perhaps a comment stand between `i` and the end of its line. -/
def restIsEmpty (i : Nat) : Bool :=
  match s[skipInline s i]? with
  | none => true
  | some c => isBreak c || c == '#'

/-- Whether a document marker (`---` or `...`, by `c`) starts at `i`. -/
def isMarker (i : Nat) (c : Char) : Bool :=
  column s i == 0 && isAt s i c && isAt s (i + 1) c && isAt s (i + 2) c && blankOrEnd s (i + 3)

/-- Whether either document marker starts at `i`. -/
def atMarker (i : Nat) : Bool := isMarker s i '-' || isMarker s i '.'

/-- Whether a block sequence entry (`-` and a blank) starts at `i`. -/
def isEntry (i : Nat) : Bool := isAt s i '-' && blankOrEnd s (i + 1)

/-- Where the text of a plain scalar on its line stops: at a line break, at `:` before a blank
(inside brackets also before a bracket or comma), at a comment, and inside brackets at a bracket
or comma. -/
def plainStop (flow : Bool) (i : Nat) : Nat :=
  if h : i < s.size then
    let c := s[i]
    if isBreak c then i
    else if c == ':' && (blankOrEnd s (i + 1) || (flow && (s[i + 1]?.any isFlowIndicator))) then i
    else if flow && isFlowIndicator c then i
    else if c == '#' && (s[i - 1]?.any isBlank) then i
    else plainStop flow (i + 1)
  else i
termination_by s.size - i

/-- Move `e` back over blanks, not before `i`. -/
def trimBack (i : Nat) : Nat → Nat
  | 0 => 0
  | e + 1 => if e + 1 ≤ i then e + 1 else if s[e]?.any isBlank then trimBack i e else e + 1

/-- The lines after the first of a plain scalar in block context: each next line indented deeper
than `parent` that is not a comment or a document marker is folded in. -/
def plainMore (parent : Int) : Nat → String → Nat → String × Nat
  | 0, text, e => (text, e)
  | fuel + 1, text, e =>
    let j := skipInline s e
    if !(s[j]?.any isBreak) then (text, e)
    else
      let (m, breaks) := skipLines s j 0
      if m ≥ s.size || (column s m : Int) ≤ parent || isAt s m '#' || atMarker s m then (text, e)
      else
        let stop := plainStop s false m
        if stop = m then (text, e)
        else
          let e2 := trimBack s m stop
          let fold := if breaks ≤ 1 then " " else String.ofList (List.replicate (breaks - 1) '\n')
          plainMore parent fuel (text ++ fold ++ slice s m e2) e2

/-- A plain scalar in block context starting at `i`: its text and the position after it. -/
def plainBlock (parent : Int) (i : Nat) : String × Nat :=
  let e := trimBack s i (plainStop s false i)
  plainMore s parent s.size (slice s i e) e

/-- A single-quoted scalar whose quote is at `start`, read from `i`. -/
def singleFrom (start : Nat) (f : Folding) (i : Nat) : Except Failure (String × Nat) :=
  if h : i < s.size then
    let c := s[i]
    if c == '\'' then
      if isAt s (i + 1) '\'' then singleFrom start (f.put "'") (i + 2)
      else .ok ((f.put "").text, i + 1)
    else if c == '\r' then singleFrom start f (i + 1)
    else if c == '\n' then singleFrom start f.lineBreak (i + 1)
    else if isBlank c then singleFrom start (f.blank c) (i + 1)
    else singleFrom start (f.put c.toString) (i + 1)
  else .error ⟨start, "while scanning a quoted scalar, found unexpected end of stream"⟩
termination_by s.size - i

/-- A double-quoted scalar whose quote is at `start`, read from `i`; `joined` holds after an
escaped line break, while the next line's leading blanks are skipped. -/
def doubleFrom (start : Nat) (f : Folding) (joined : Bool) (i : Nat) :
    Except Failure (String × Nat) :=
  if h : i < s.size then
    let c := s[i]
    if joined && isBlank c then doubleFrom start f true (i + 1)
    else if c == '"' then .ok ((f.put "").text, i + 1)
    else if c == '\r' then doubleFrom start f joined (i + 1)
    else if c == '\n' then
      if joined then doubleFrom start f true (i + 1) else doubleFrom start f.lineBreak false (i + 1)
    else if isBlank c then doubleFrom start (f.blank c) false (i + 1)
    else if c == '\\' then
      match s[i + 1]? with
      | none => .error ⟨start, "while scanning a quoted scalar, found unexpected end of stream"⟩
      | some e =>
        if isBreak e then
          if e == '\r' && isAt s (i + 2) '\n' then doubleFrom start (f.put "") true (i + 3)
          else doubleFrom start (f.put "") true (i + 2)
        else
          let width := if e == 'x' then 2 else if e == 'u' then 4 else if e == 'U' then 8 else 0
          if width > 0 then
            let ds := (s.extract (i + 2) (i + 2 + width)).toList
            if ds.length < width || !ds.all (fun d => d.isDigit || ('a' ≤ d && d ≤ 'f') ||
                ('A' ≤ d && d ≤ 'F')) then
              .error ⟨start, "while parsing a quoted scalar, did not find expected hexdecimal number"⟩
            else match hexChar? ds with
              | some ch => doubleFrom start (f.put ch.toString) false (i + 2 + width)
              | none => .error ⟨start,
                  "while parsing a quoted scalar, found invalid Unicode character escape code"⟩
          else match simpleEscape? e with
            | some ch => doubleFrom start (f.put ch.toString) false (i + 2)
            | none => .error ⟨start, "while parsing a quoted scalar, found unknown escape character"⟩
    else doubleFrom start (f.put c.toString) false (i + 1)
  else .error ⟨start, "while scanning a quoted scalar, found unexpected end of stream"⟩
termination_by s.size - i
decreasing_by all_goals (try split) <;> omega

/-- A quoted scalar whose quote is at `i`: its text and the position after it. -/
def quoted (i : Nat) : Except Failure (String × Nat) :=
  if isAt s i '\'' then singleFrom s i {} (i + 1) else doubleFrom s i {} false (i + 1)

/-- Skip the indentation and empty lines before a block scalar's next content line. With no
indentation fixed yet (`indent = 0`) every leading space is skipped and the deepest column seen is
kept. Gives the position, the line feeds passed and that column. -/
def scalarBreaks (indent : Nat) (i breaks deepest : Nat) : Except Failure (Nat × Nat × Nat) :=
  if h : i < s.size then
    let c := s[i]
    let col := column s i
    let deepest := max deepest col
    if c == ' ' && (indent == 0 || col < indent) then scalarBreaks indent (i + 1) breaks deepest
    else if c == '\t' && (indent == 0 || col < indent) then
      .error ⟨i, "while scanning a block scalar, found a tab character where an indentation space is expected"⟩
    else if c == '\r' then scalarBreaks indent (i + 1) breaks deepest
    else if c == '\n' then scalarBreaks indent (i + 1) (breaks + 1) deepest
    else .ok (i, breaks, deepest)
  else .ok (i, breaks, max deepest (column s i))
termination_by s.size - i

/-- The content lines of a block scalar at `indent`: `leading` is the break ending the last line,
`trailing` the empty lines after it, `leadingBlank` whether the last line began with a blank. -/
def scalarLines (literal : Bool) (indent : Nat) :
    Nat → Nat → String → Nat → Nat → Bool → Except Failure (String × Nat × Nat × Nat)
  | 0, i, text, leading, trailing, _ => .ok (text, leading, trailing, i)
  | fuel + 1, i, text, leading, trailing, leadingBlank =>
    if i ≥ s.size || column s i != indent then .ok (text, leading, trailing, i)
    else
      let trailingBlank := s[i]?.any isBlank
      let text :=
        if !literal && leading > 0 && !leadingBlank && !trailingBlank then
          (if trailing = 0 then text.push ' ' else text)
        else text ++ String.ofList (List.replicate leading '\n')
      let text := text ++ String.ofList (List.replicate trailing '\n')
      let e := toBreak s i
      let text := text ++ slice s i e
      if e ≥ s.size then .ok (text, 0, 0, e)
      else
        let next := if isAt s e '\r' && isAt s (e + 1) '\n' then e + 2 else e + 1
        match scalarBreaks s indent next 0 0 with
        | .error f => .error f
        | .ok (j, breaks, _) =>
          scalarLines literal indent fuel j text 1 breaks (s[i]?.any isBlank)

/-- A block scalar whose indicator (`|` or `>`) is at `i`, inside a block at column `parent`. -/
def blockScalar (parent : Int) (i : Nat) : Except Failure (String × Nat) := do
  let literal := isAt s i '|'
  let indicators := (s.extract (i + 1) (i + 3)).toList.takeWhile
    (fun c => c == '+' || c == '-' || c.isDigit)
  let indicators := match indicators with
    | [a, b] => if (a.isDigit && b.isDigit) || (!a.isDigit && !b.isDigit) then [a] else [a, b]
    | other => other
  let chomp : Int := if indicators.contains '+' then 1 else if indicators.contains '-' then -1 else 0
  let increment := (indicators.find? Char.isDigit).map (·.toNat - 48)
  if increment == some 0 then
    throw ⟨i, "while scanning a block scalar, found an indentation indicator equal to 0"⟩
  let k := skipInline s (i + 1 + indicators.length)
  let lineEnd := if isAt s k '#' then toBreak s k else k
  if !(s[lineEnd]?.all isBreak) then
    throw ⟨i, "while scanning a block scalar, did not find expected comment or line break"⟩
  let body := if isAt s lineEnd '\r' && isAt s (lineEnd + 1) '\n' then lineEnd + 2
    else if lineEnd < s.size then lineEnd + 1 else lineEnd
  let fixed : Nat := match increment with
    | some n => if parent ≥ 0 then parent.toNat + n else n
    | none => 0
  let (j, breaks, deepest) ← scalarBreaks s fixed body 0 0
  let indent := if fixed = 0 then max (max deepest (parent + 1).toNat) 1 else fixed
  let (text, leading, trailing, e) ← scalarLines s literal indent s.size j "" 0 breaks false
  let text := if chomp ≠ -1 then text ++ String.ofList (List.replicate leading '\n') else text
  let text := if chomp = 1 then text ++ String.ofList (List.replicate trailing '\n') else text
  return (text, e)

/-- Read an anchor or alias name starting at `i`: characters up to a blank or a flow indicator. -/
def nameEnd (i : Nat) : Nat :=
  if h : i < s.size then
    let c := s[i]
    if isBlank c || isBreak c || isFlowIndicator c then i else nameEnd (i + 1)
  else i
termination_by s.size - i

/-- A tag starting at the `!` at `i`, and the position after it. -/
def readTag (i : Nat) : Tag × Nat :=
  let e := nameEnd s i
  let t := slice s i e
  if t.startsWith "!<" then (⟨"", ((t.drop 2).toString.dropEnd 1).toString⟩, e)
  else if t.startsWith "!!" then (⟨"!!", (t.drop 2).toString⟩, e)
  else if t == "!" then (⟨"", "!"⟩, e)
  else (⟨"!", (t.drop 1).toString⟩, e)

/-- Anchors and tags before a node, at `i`: the anchor, the tag and where the node starts. -/
def properties (i : Nat) : Option String × Option Tag × Nat :=
  let one := fun (st : Option String × Option Tag × Nat) =>
    let (anchor, tag, j) := st
    if isAt s j '&' then
      let e := nameEnd s (j + 1)
      (some (slice s (j + 1) e), tag, skipInline s e)
    else if isAt s j '!' then
      let (t, e) := readTag s j
      (anchor, some t, skipInline s e)
    else st
  one (one (none, none, i))

/-- Register an anchored value. -/
def anchorAs (anchor : Option String) (v : Node) : Reader Unit :=
  match anchor with
  | some a => modify fun st => { st with anchors := (a, v) :: st.anchors }
  | none => pure ()

/-- The value an alias at `i` names. -/
def aliasTarget (i : Nat) : Reader (Node × Nat) := do
  let e := nameEnd s (i + 1)
  let name := slice s (i + 1) e
  match (← get).anchors.lookup name with
  | some v => do
    endAt i
    return (v, e)
  | none => fail i "while parsing node, found unknown anchor"

end Reading

mutual

/-- Whether two nodes are the same value, as keys are compared. -/
def Node.same : Node → Node → Bool
  | .null, .null | .invalid, .invalid => true
  | .bool a, .bool b => a == b
  | .int a, .int b => a == b
  | .real a, .real b => a == b
  | .str a, .str b => a == b
  | .seq as, .seq bs => Node.sameItems as bs
  | .map as, .map bs => Node.sameEntries as bs
  | _, _ => false

/-- Whether two lists of items are the same, item by item. -/
def Node.sameItems : List Node → List Node → Bool
  | [], [] => true
  | a :: as, b :: bs => Node.same a b && Node.sameItems as bs
  | _, _ => false

/-- Whether two lists of entries are the same, entry by entry. -/
def Node.sameEntries : List (Node × Node) → List (Node × Node) → Bool
  | [], [] => true
  | (k, v) :: as, (k', v') :: bs => Node.same k k' && Node.same v v' && Node.sameEntries as bs
  | _, _ => false

end

mutual

/-- How a node is shown in messages: its kind, then its contents. -/
def Node.debug : Node → String
  | .null => "Null"
  | .invalid => "BadValue"
  | .bool b => "Boolean(" ++ toString b ++ ")"
  | .int i => "Integer(" ++ toString i ++ ")"
  | .real t => "Real(" ++ Text.quoteString t ++ ")"
  | .str t => "String(" ++ Text.quoteString t ++ ")"
  | .seq items => "Array([" ++ Node.debugItems items ++ "])"
  | .map entries => "Hash(\x7b" ++ Node.debugEntries entries ++ "\x7d)"

/-- Items shown in messages, separated by commas. -/
def Node.debugItems : List Node → String
  | [] => ""
  | [v] => Node.debug v
  | v :: rest => Node.debug v ++ ", " ++ Node.debugItems rest

/-- Entries shown in messages as `key: value`, separated by commas. -/
def Node.debugEntries : List (Node × Node) → String
  | [] => ""
  | [(k, v)] => Node.debug k ++ ": " ++ Node.debug v
  | (k, v) :: rest => Node.debug k ++ ": " ++ Node.debug v ++ ", " ++ Node.debugEntries rest

end

/-- Add an entry to a mapping; a key already there is refused at `mark`, where its value
ended. -/
def addEntry (es : List (Node × Node)) (k v : Node) (mark : Nat) : Reader (List (Node × Node)) :=
  if es.any (fun e => Node.same e.1 k) then fail mark (k.debug ++ ": duplicated key in mapping")
  else return es ++ [(k, v)]

section Nodes

variable (s : Array Char)

mutual

/-- A node in flow context at `i`. -/
def flowNode : Nat → Option Tag → Nat → Reader (Node × Nat)
  | 0, _, i => fail i "recursion limit exceeded"
  | n + 1, tag, i =>
    match s[i]? with
    | some '[' => flowSeq n (i + 1) []
    | some '{' => flowMap n (i + 1) []
    | some '"' | some '\'' => do
      let (t, e) ← liftM (quoted s i)
      endAt i
      return (.str t, e)
    | some '*' => aliasTarget s i
    | some '&' | some '!' => do
      let (anchor, tag', j) := properties s i
      let (v, e) ← flowNode n (tag'.orElse fun _ => tag) j
      anchorAs anchor v
      return (v, e)
    | some c =>
      if isFlowIndicator c || (c == ':' && blankOrEnd s (i + 1)) then
        if c == ',' || c == ']' || c == '}' then
          fail i "while parsing a flow node, did not find expected node content"
        else do
          endAt i
          return (resolve tag true "", i)
      else do
        let e := trimBack s i (plainStop s true i)
        endAt i
        return (resolve tag true (slice s i e), e)
    | none => fail i "while parsing a flow node, did not find expected node content"

/-- The entries of a flow sequence from `i`, those read so far in `items`. -/
def flowSeq : Nat → Nat → List Node → Reader (Node × Nat)
  | 0, i, _ => fail i "recursion limit exceeded"
  | n + 1, i, items => do
    let m := skipSpace s i
    if m ≥ s.size then fail m "while parsing a flow sequence, expected ',' or ']'"
    else if isAt s m ']' then do
      endAt m
      return (.seq items, m + 1)
    else
      let (v, e) ← flowNode n none m
      let p := skipSpace s e
      let (v, p) ← if isAt s p ':' then do
          let q := skipSpace s (p + 1)
          if isAt s q ',' || isAt s q ']' then pure (Node.map [(v, .null)], q)
          else
            let (w, e2) ← flowNode n none q
            pure (Node.map [(v, w)], skipSpace s e2)
        else pure (v, p)
      if isAt s p ',' then flowSeq n (p + 1) (items ++ [v])
      else if isAt s p ']' then do
        endAt p
        return (.seq (items ++ [v]), p + 1)
      else fail p "while parsing a flow sequence, expected ',' or ']'"

/-- The entries of a flow mapping from `i`, those read so far in `entries`. -/
def flowMap : Nat → Nat → List (Node × Node) → Reader (Node × Nat)
  | 0, i, _ => fail i "recursion limit exceeded"
  | n + 1, i, entries => do
    let m := skipSpace s i
    if m ≥ s.size then fail m "while parsing a flow mapping, did not find expected ',' or '\x7d'"
    else if isAt s m '}' then do
      endAt m
      return (.map entries, m + 1)
    else
      let (k, e) ← flowNode n none m
      let p := skipSpace s e
      let (v, r) ← if isAt s p ':' then do
          let q := skipSpace s (p + 1)
          if isAt s q ',' || isAt s q '}' then do
            endAt p
            pure (Node.null, q)
          else
            let (w, e2) ← flowNode n none q
            pure (w, skipSpace s e2)
        else do
          endAt p
          pure (Node.null, p)
      let entries ← addEntry entries k v (← get).mark
      if isAt s r ',' then flowMap n (r + 1) entries
      else if isAt s r '}' then do
        endAt r
        return (.map entries, r + 1)
      else fail r "while parsing a flow mapping, did not find expected ',' or '\x7d'"

/-- A node in block context at `i`, inside a block at column `parent`. `allowMap` says whether a
mapping may start here (not on the line of another key). -/
def blockNode : Nat → Int → Bool → Option Tag → Nat → Reader (Node × Nat)
  | 0, _, _, _, i => fail i "recursion limit exceeded"
  | n + 1, parent, allowMap, tag, i =>
    let afterValue := fun (v : Node) (e : Nat) => do
      let j := skipInline s e
      if isAt s j ':' && blankOrEnd s (j + 1) then
        if allowMap then blockMapping n (column s i) i []
        else fail j "mapping values are not allowed in this context"
      else return (v, e)
    match s[i]? with
    | none => do
      endAt i
      return (.null, i)
    | some c =>
      if c == '-' && blankOrEnd s (i + 1) then
        if allowMap then blockSeq n (column s i) i []
        else fail i "block sequence entries are not allowed in this context"
      else if c == '[' then do
        let (v, e) ← flowSeq n (i + 1) []
        afterValue v e
      else if c == '{' then do
        let (v, e) ← flowMap n (i + 1) []
        afterValue v e
      else if c == '"' || c == '\'' then do
        let (t, e) ← liftM (quoted s i)
        endAt i
        afterValue (.str t) e
      else if c == '|' || c == '>' then do
        let (t, e) ← liftM (blockScalar s parent i)
        endAt i
        return (.str t, e)
      else if c == '*' then do
        let (v, e) ← aliasTarget s i
        afterValue v e
      else if c == '&' || c == '!' then do
        let (anchor, tag', j) := properties s i
        let tag := tag'.orElse fun _ => tag
        let (v, e) ←
          if restIsEmpty s j then
            let m := skipSpace s j
            if m < s.size && !atMarker s m && (column s m : Int) > parent then
              blockNode n parent true tag m
            else do
              endAt m
              pure (resolve tag true "", j)
          else blockNode n parent allowMap tag j
        anchorAs anchor v
        return (v, e)
      else if c == '@' || c == '`' || c == '%' then
        fail i "found character that cannot start any token"
      else if isFlowIndicator c then
        fail i "while parsing a block node, did not find expected node content"
      else
        let stop := plainStop s false i
        if isAt s stop ':' then
          if allowMap then blockMapping n (column s i) i []
          else fail stop "mapping values are not allowed in this context"
        else do
          let (t, e) := plainBlock s parent i
          endAt i
          afterValue (resolve tag true t) e

/-- The entries of a block mapping at column `col`, from the key at `i`. -/
def blockMapping : Nat → Nat → Nat → List (Node × Node) → Reader (Node × Nat)
  | 0, _, i, _ => fail i "recursion limit exceeded"
  | n + 1, col, i, entries => do
    let (k, e) ← match s[i]? with
      | some '"' | some '\'' => do
        let (t, e) ← liftM (quoted s i)
        pure (Node.str t, e)
      | _ =>
        let e := trimBack s i (plainStop s false i)
        pure (resolvePlain (slice s i e), e)
    let j := skipInline s e
    if !(isAt s j ':' && blankOrEnd s (j + 1)) then
      let m := skipSpace s e
      if m ≥ s.size && lineStart s m == lineStart s i then fail m "simple key expected"
      else fail m "simple key expect ':'"
    let k1 := skipInline s (j + 1)
    let (v, e) ←
      if restIsEmpty s k1 then
        let m := skipSpace s k1
        if m ≥ s.size || atMarker s m then do
          endAt m
          pure (Node.null, k1)
        else if column s m > col then blockNode n col true none m
        else if column s m == col && isEntry s m then blockSeq n col m []
        else do
          endAt m
          pure (Node.null, k1)
      else blockNode n col false none k1
    let entries ← addEntry entries k v (← get).mark
    let m := skipSpace s e
    if m ≥ s.size || column s m < col || atMarker s m then do
      endAt m
      return (.map entries, m)
    else if column s m == col then
      if isEntry s m then fail m "while parsing a block mapping, did not find expected key"
      else blockMapping n col m entries
    else fail m "while parsing a block mapping, did not find expected key"

/-- The entries of a block sequence at column `col`, from the `-` at `i`. -/
def blockSeq : Nat → Nat → Nat → List Node → Reader (Node × Nat)
  | 0, _, i, _ => fail i "recursion limit exceeded"
  | n + 1, col, i, items => do
    let j := skipInline s (i + 1)
    let (v, e) ←
      if restIsEmpty s j then
        let m := skipSpace s j
        if m < s.size && !atMarker s m && column s m > col then blockNode n col true none m
        else pure (Node.null, j)
      else blockNode n col true none j
    let items := items ++ [v]
    let m := skipSpace s e
    if m ≥ s.size || column s m < col || atMarker s m then do
      endAt m
      return (.seq items, m)
    else if column s m == col then
      if isEntry s m then blockSeq n col m items
      else do
        endAt m
        return (.seq items, m)
    else fail m "while parsing a block collection, did not find expected '-' indicator"

end

/-- The documents of a stream from `i`, those read so far in `docs`. -/
def documents : Nat → Nat → List Node → Reader (List Node)
  | 0, _, docs => return docs
  | fuel + 1, i, docs => do
    let m := skipSpace s i
    if m ≥ s.size then return docs
    else if isAt s m '%' && column s m == 0 then documents fuel (toBreak s m) docs
    else if isMarker s m '.' then documents fuel (m + 3) docs
    else
      let (v, e) ←
        if isMarker s m '-' then
          let j := skipInline s (m + 3)
          if restIsEmpty s j then
            let k := skipSpace s j
            if k ≥ s.size || atMarker s k then pure (Node.null, k)
            else blockNode s s.size (-1) true none k
          else blockNode s s.size (-1) true none j
        else blockNode s s.size (-1) true none m
      let k := skipSpace s e
      if k ≥ s.size then return docs ++ [v]
      else if isMarker s k '.' then documents fuel (k + 3) (docs ++ [v])
      else if isMarker s k '-' then documents fuel k (docs ++ [v])
      else fail k "did not find expected <document start>"

end Nodes

/-- The crash of a mapping key that is neither text nor an integer. -/
def keyCrash : ReadFailure := .crashed "internal error: entered unreachable code"

mutual

/-- A node as a raw setting value from `origin`; a float YAML accepts but the usual syntax does
not is refused. Mappings are read entry by entry, each key before its value. -/
def Node.toRaw (origin : Origin) : Node → Except ReadFailure Raw
  | .null | .invalid => .ok (.nil origin)
  | .bool b => .ok (.bool origin b)
  | .int i => .ok (.int origin i)
  | .real t => match Decimal.standardFloat? t with
    | some f => .ok (.float origin f)
    | none => .error (.refused ("Parsing " ++ t ++ " as floating point number failed"))
  | .str t => .ok (.str origin t)
  | .seq items => .list origin <$> Node.itemsToRaw origin items
  | .map entries =>
    (fun es => .table origin (es.foldl (fun acc e => Raw.putEntry acc e.1 e.2) [])) <$>
      Node.entriesToRaw origin entries

/-- Sequence items as raw values. -/
def Node.itemsToRaw (origin : Origin) : List Node → Except ReadFailure (List Raw)
  | [] => .ok []
  | v :: rest => do
    let r ← Node.toRaw origin v
    let rs ← Node.itemsToRaw origin rest
    return r :: rs

/-- Mapping entries as raw entries: text keys in lower case, integers written out. -/
def Node.entriesToRaw (origin : Origin) :
    List (Node × Node) → Except ReadFailure (List (String × Raw))
  | [] => .ok []
  | (k, v) :: rest => do
    let key ← match k with
      | .str t => pure (Raw.lowerKey t)
      | .int i => pure (toString i)
      | _ => throw keyCrash
    let r ← Node.toRaw origin v
    let rs ← Node.entriesToRaw origin rest
    return (key, r) :: rs

end

/-- Where a character position is: the position itself, its line from 1 and its column from
1. -/
def place (s : Array Char) (pos : Nat) : Nat × Nat × Nat :=
  ((pos, ((s.extract 0 pos).toList.count '\n') + 1, column s pos + 1))

/-- Read a YAML file into its root value from `origin`; a refusal is its message and place. -/
def read (origin : Origin) (text : String) : Except ReadFailure Raw :=
  let s := text.toList.toArray
  let start := if s[0]? == some '\uFEFF' then 1 else 0
  match (documents s (s.size + 1) start []).run' {} with
  | .error f =>
    let (index, line, col) := place s f.pos
    .error (.refused (f.message ++ " at byte " ++ toString index ++ " line " ++ toString line ++
      " column " ++ toString col))
  | .ok [] => .ok (.table origin [])
  | .ok [doc] => doc.toRaw origin
  | .ok docs => .error (.refused ("Got " ++ toString docs.length ++ " YAML documents, expected 1"))

end Stowage.Formats.Yaml
