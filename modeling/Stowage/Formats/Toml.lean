import Stowage.Settings.Raw
import Stowage.Decimal.Nearest
/-!
TOML settings files.

The reader follows the TOML 1.0 grammar. A document is read line by line: comments, blank
lines, `key = value` pairs and `[table]` or `[[array of tables]]` headers. Keys are bare
(`A-Z a-z 0-9 - _`) or quoted, and may be dotted. Values are strings (basic, literal, and their
multi-line forms), integers (decimal, `0x`, `0o`, `0b`, with single underscores between digits,
within the signed 64-bit range), floats (with `inf` and `nan`), booleans, dates and times (kept
as their normalized text), arrays and inline tables, nested at most 79 deep.

Tables may not be defined twice, dotted keys may not reopen a table defined by a header, a
header may not redefine a table, and a key may only extend tables.

A failure is shown with its line and column (from 1; see `position`), the line itself, carets
under the place, and a message: what was being read (`invalid integer`), what could have stood
there (`expected newline, \x60#\x60`) and the reason, each on its own line. A failure found only
once the whole document was read has no place.
-/
namespace Stowage.Formats.Toml

open Stowage.Settings

/-! ## Failures -/

/-- What a failed step says about itself. -/
inductive Ctx where
  /-- What was being read. -/
  | label (what : String)
  /-- Something that could have stood there. -/
  | expected (what : String)

/-- A failed step: where reading stopped, whether other readings may still be tried, what the
steps around it said, and the reason. -/
structure Failure where
  pos : Nat
  cut : Bool
  contexts : List Ctx
  cause : Option String

/-- A failure at a place, with nothing said yet. -/
def Failure.at (pos : Nat) : Failure := ⟨pos, false, [], none⟩

/-- The result of a reading step: a value and where reading goes on. -/
abbrev Step (α : Type) := Except Failure (α × Nat)

/-- Add what a surrounding step says. -/
def within {α : Type} (cs : List Ctx) (r : Step α) : Step α :=
  r.mapError fun f => { f with contexts := f.contexts ++ cs }

/-- No other reading may be tried after this failure. -/
def cutting {α : Type} (r : Step α) : Step α :=
  r.mapError fun f => { f with cut := true }

/-- A final failure at a place with what is said about it. -/
def stop {α : Type} (pos : Nat) (cs : List Ctx) (cause : Option String := none) : Step α :=
  .error ⟨pos, true, cs, cause⟩

/-- How a character that could have stood somewhere is named. -/
def literal (c : Char) : String :=
  if c = '\n' then "newline" else "\x60" ++ c.toString ++ "\x60"

/-- The message of a failure: the first thing being read, the things expected, the reason. -/
def Failure.message (f : Failure) : String :=
  let label := f.contexts.findSome? fun c => match c with
    | .label l => some l
    | .expected _ => none
  let expected := f.contexts.filterMap fun c => match c with
    | .expected e => some e
    | .label _ => none
  let parts := (label.map ("invalid " ++ ·)).toList ++
    (if expected.isEmpty then [] else ["expected " ++ ", ".intercalate expected]) ++ f.cause.toList
  "\n".intercalate parts

/-! ## Characters -/

/-- Blanks inside a line. -/
def isBlank (c : Char) : Bool := c = ' ' || c = '\t'

/-- Characters beyond ASCII. -/
def isWide (c : Char) : Bool := c.toNat ≥ 0x80

/-- Characters of a bare key. -/
def isBareKeyChar (c : Char) : Bool := c.isAlphanum || c = '-' || c = '_'

/-- Characters of a comment. -/
def isCommentChar (c : Char) : Bool := c = '\t' || (0x20 ≤ c.toNat && c.toNat ≤ 0x7E) || isWide c

/-- Characters written as they are in a basic string. -/
def isBasicChar (c : Char) : Bool :=
  isBlank c || c = '!' || (0x23 ≤ c.toNat && c.toNat ≤ 0x5B) || (0x5D ≤ c.toNat && c.toNat ≤ 0x7E) ||
    isWide c

/-- Characters of a literal string. -/
def isLiteralChar (c : Char) : Bool :=
  c = '\t' || (0x20 ≤ c.toNat && c.toNat ≤ 0x26) || (0x28 ≤ c.toNat && c.toNat ≤ 0x7E) || isWide c

/-- Hexadecimal digits. -/
def isHexDigit (c : Char) : Bool := c.isDigit || ('a' ≤ c && c ≤ 'f') || ('A' ≤ c && c ≤ 'F')

/-- The value of a digit in base 16 or below. -/
def digitValue (c : Char) : Nat :=
  if c.isDigit then c.toNat - '0'.toNat
  else if 'a' ≤ c && c ≤ 'f' then c.toNat - 'a'.toNat + 10
  else c.toNat - 'A'.toNat + 10

/-- The number written by digits in a base. -/
def digitsValue (base : Nat) (ds : List Char) : Nat := ds.foldl (fun n c => n * base + digitValue c) 0

/-- The ten-digit escapes a basic string knows, as they are named when one is wrong. -/
def escapeChoices : List Ctx :=
  ['b', 'f', 'n', 'r', 't', 'u', 'U', '\\', '"'].map fun c => .expected (literal c)

/-- What a value that cannot start a number, a string or a structure is taken for. -/
def stringContext : List Ctx := [.label "string", .expected (literal '"'), .expected (literal '\'')]

/-! ## Documents -/

/-- A value or table of a document. Tables remember whether they were only implied by a
longer key (`implicit`) and whether a dotted key made them (`dotted`). -/
inductive Node where
  | str (s : String)
  | int (i : Int)
  | float (f : Float)
  | bool (b : Bool)
  | datetime (text : String)
  | array (items : List Node)
  | inline (implicit dotted : Bool) (entries : List (String × Node))
  | table (implicit dotted : Bool) (entries : List (String × Node))
  | tables (items : List (List (String × Node)))
  deriving Inhabited

/-- How a value is named when a key tries to extend it. -/
def Node.typeName : Node → String
  | .str _ => "string"
  | .int _ => "integer"
  | .float _ => "float"
  | .bool _ => "boolean"
  | .datetime _ => "datetime"
  | .array _ => "array"
  | .inline .. => "inline table"
  | .table .. => "table"
  | .tables _ => "array of tables"

/-- A key defined twice, perhaps with the table it is in. -/
def duplicateKey (key : String) (table : Option (List String)) : String :=
  "duplicate key \x60" ++ key ++ "\x60" ++ match table with
    | none => ""
    | some [] => " in document root"
    | some path => " in table \x60" ++ ".".intercalate path ++ "\x60"

/-- A dotted key that runs into a value. -/
def extendsValue (path : List String) (actual : String) : String :=
  "dotted key \x60" ++ ".".intercalate path ++ "\x60 attempted to extend non-table type (" ++
    actual ++ ")"

/-- Replace an entry in place. -/
def setEntry (es : List (String × Node)) (k : String) (v : Node) : List (String × Node) :=
  es.map fun e => if e.1 == k then (k, v) else e

/-- Walk down a key path of a document from `es`, making implicit tables on the way (dotted
ones when `dotted`), and work on the entries found there. `full` is the whole path and `i` the
position of `rest` in it. -/
def descend {α : Type} (dotted : Bool) (full : List String) (f : List (String × Node) → Bool →
    Except String (List (String × Node) × α)) :
    Nat → List String → List (String × Node) → Bool → Except String (List (String × Node) × α)
  | _, [], es, isDotted => f es isDotted
  | i, k :: rest, es, _ =>
    match es.lookup k with
    | none => do
      let (inner, a) ← descend dotted full f (i + 1) rest [] dotted
      return (es ++ [(k, .table true dotted inner)], a)
    | some (.table imp dot inner) =>
      if dotted && !imp then .error (duplicateKey k none)
      else do
        let (inner, a) ← descend dotted full f (i + 1) rest inner dot
        return (setEntry es k (.table imp dot inner), a)
    | some (.tables ts) => do
      let (inner, a) ← descend dotted full f (i + 1) rest (ts.getLastD []) false
      return (setEntry es k (.tables (ts.dropLast ++ [inner])), a)
    | some other => .error (extendsValue (full.take (i + 1)) other.typeName)

/-- Walk down a key path inside an inline table, making dotted implicit tables on the way, and
add a key there. -/
def insertInline (full : List String) (key : String) (v : Node) :
    Nat → List String → List (String × Node) → Bool → Except String (List (String × Node))
  | _, [], es, isDotted =>
    if isDotted == full.isEmpty then .error (duplicateKey key none)
    else if es.any (·.1 == key) then .error (duplicateKey key none)
    else .ok (es ++ [(key, v)])
  | i, k :: rest, es, _ =>
    match es.lookup k with
    | none => do
      let inner ← insertInline full key v (i + 1) rest [] true
      return es ++ [(k, .inline true true inner)]
    | some (.inline imp dot inner) =>
      if !imp then .error (duplicateKey k none)
      else do
        let inner ← insertInline full key v (i + 1) rest inner dot
        return setEntry es k (.inline imp dot inner)
    | some other => .error (extendsValue (full.take (i + 1)) other.typeName)

/-- Build an inline table from its pairs in order. -/
def inlineEntries (pairs : List (List String × String × Node)) : Except String (List (String × Node)) :=
  pairs.foldlM (fun es (path, key, v) => insertInline path key v 0 path es false) []

/-- The reading state of a document: the tables finished so far, the table being filled, its
header path and whether it is an element of an array of tables. -/
structure DocState where
  root : List (String × Node)
  current : List (String × Node)
  path : List String
  isArray : Bool

namespace DocState

/-- A key-value pair in the current table. -/
def onKeyval (st : DocState) (path : List String) (key : String) (v : Node) :
    Except String DocState := do
  let (current, ()) ← descend true path (fun es isDotted =>
    if isDotted == path.isEmpty then .error (duplicateKey key none)
    else if es.any (·.1 == key) then .error (duplicateKey key (some st.path))
    else .ok (es ++ [(key, v)], ())) 0 path st.current false
  return { st with current }

/-- Put the current table into the document. -/
def finalize (st : DocState) : Except String DocState :=
  match st.path.getLast? with
  | none => .ok { st with root := st.current, current := [] }
  | some key => do
    let parent := st.path.dropLast
    let (root, ()) ← descend false parent (fun es _ =>
      match es.lookup key with
      | none =>
        .ok (es ++ [(key, if st.isArray then .tables [st.current] else .table false false st.current)], ())
      | some (.tables ts) =>
        if st.isArray then .ok (setEntry es key (.tables (ts ++ [st.current])), ())
        else .error (duplicateKey key (some parent))
      | some (.table imp _ _) =>
        if !st.isArray && imp then .ok (setEntry es key (.table false false st.current), ())
        else .error (duplicateKey key (some parent))
      | some _ => .error (duplicateKey key (some parent))) 0 parent st.root false
    return { st with root, current := [], path := [] }

/-- Start a `[table]`: an implicit table of that path is taken over, anything else there is a
duplicate. -/
def startTable (st : DocState) (path : List String) : Except String DocState := do
  let st ← st.finalize
  let key := path.getLastD ""
  let parent := path.dropLast
  let (root, found) ← descend false parent (fun es _ =>
    match es.lookup key with
    | none => .ok (es, [])
    | some (.table imp dot inner) =>
      if imp && !dot then .ok (es.filter (·.1 != key), inner)
      else .error (duplicateKey key (some parent))
    | some _ => .error (duplicateKey key (some parent))) 0 parent st.root false
  return { root, current := found, path, isArray := false }

/-- Start a `[[table]]` element. -/
def startArrayTable (st : DocState) (path : List String) : Except String DocState := do
  let st ← st.finalize
  let key := path.getLastD ""
  let parent := path.dropLast
  let (root, ()) ← descend false parent (fun es _ =>
    match es.lookup key with
    | none => .ok (es ++ [(key, .tables [])], ())
    | some (.tables _) => .ok (es, ())
    | some _ => .error (duplicateKey key (some parent))) 0 parent st.root false
  return { root, current := [], path, isArray := true }

end DocState

/-! ## Reading -/

section Reading

variable (s : Array Char)

/-- The character at a place. -/
def at? (p : Nat) : Option Char := s[p]?

/-- Whether a character is at a place. -/
def isAt (p : Nat) (c : Char) : Bool := at? s p == some c

/-- Whether a text starts at a place. -/
def hasAt (p : Nat) (t : String) : Bool := (t.toList.zipIdx.all fun (c, i) => isAt s (p + i) c)

/-- The text between two places. -/
def slice (a b : Nat) : String := String.ofList (s.extract a b).toList

/-- The place after the characters `ok` accepts. -/
def skip (ok : Char → Bool) (p : Nat) : Nat :=
  if h : p < s.size then if ok s[p] then skip ok (p + 1) else p else p
termination_by s.size - p

/-- The place after at most `n` characters that `ok` accepts. -/
def skipUpTo (ok : Char → Bool) : Nat → Nat → Nat
  | 0, p => p
  | n + 1, p => if (at? s p).any ok then skipUpTo ok n (p + 1) else p

/-- The place after blanks. -/
def ws (p : Nat) : Nat := skip s isBlank p

/-- The place after a line break. -/
def newline (p : Nat) : Option Nat :=
  if isAt s p '\n' then some (p + 1)
  else if isAt s p '\r' && isAt s (p + 1) '\n' then some (p + 2) else none

/-- The place after a comment. -/
def comment (p : Nat) : Option Nat :=
  if isAt s p '#' then some (skip s isCommentChar (p + 1)) else none

/-- The place after the end of a line: a line break or the end of the text. -/
def lineEnding (p : Nat) : Option Nat :=
  match newline s p with
  | some q => some q
  | none => if p ≥ s.size then some p else none

/-- Blanks, perhaps a comment, and the end of the line. -/
def lineTrailing (p : Nat) : Step Unit :=
  let q := ws s p
  let q := (comment s q).getD q
  match lineEnding s q with
  | some r => .ok ((), r)
  | none => .error (Failure.at q)

/-- Blanks, comments and line breaks, between the items of an array. -/
def blankLines : Nat → Nat → Step Unit
  | 0, p => .ok ((), p)
  | fuel + 1, p =>
    let q := ws s p
    if isAt s q '#' then
      let r := (comment s q).getD q
      match newline s r with
      | some r => blankLines fuel r
      | none => .error (Failure.at r)
    else if isAt s q '\n' || isAt s q '\r' then
      match newline s q with
      | some r => blankLines fuel r
      | none => .error (Failure.at q)
    else .ok ((), q)

/-- The hexadecimal digits of a `\u` or `\U` escape, at `p`. -/
def hexEscape (n : Nat) (what : String) (p : Nat) : Step Char :=
  let q := skipUpTo s isHexDigit n p
  if q - p != n then stop p [.label what]
  else
    let v := digitsValue 16 (s.extract p q).toList
    if v < 0xD800 || (0xE000 ≤ v && v ≤ 0x10FFFF) then .ok (Char.ofNat v, q)
    else stop p [.label what] (some "value is out of range")

/-- An escape at `p`, where the backslash is. -/
def escaped (p : Nat) : Step Char :=
  match at? s (p + 1) with
  | none => .error (Failure.at (p + 1))
  | some c =>
    let q := p + 2
    match c with
    | 'b' => .ok ('\x08', q)
    | 'f' => .ok ('\x0c', q)
    | 'n' => .ok ('\n', q)
    | 'r' => .ok ('\r', q)
    | 't' => .ok ('\t', q)
    | '\\' => .ok ('\\', q)
    | '"' => .ok ('"', q)
    | 'u' => hexEscape s 4 "unicode 4-digit hex code" q
    | 'U' => hexEscape s 8 "unicode 8-digit hex code" q
    | _ => stop q (.label "escape sequence" :: escapeChoices)

/-- The characters and escapes of a basic string from `p`. -/
def basicBody : Nat → Nat → String → Step String
  | 0, p, acc => .ok (acc, p)
  | fuel + 1, p, acc =>
    match at? s p with
    | none => .ok (acc, p)
    | some c =>
      if isBasicChar c then
        let q := skip s isBasicChar p
        basicBody fuel q (acc ++ slice s p q)
      else if c = '\\' then
        match escaped s p with
        | .ok (ch, q) => basicBody fuel q (acc.push ch)
        | .error f => if f.cut then .error f else .ok (acc, p)
      else .ok (acc, p)

/-- A basic string whose opening quote is at `p`. -/
def basicString (p : Nat) : Step String :=
  match basicBody s (s.size + 1) (p + 1) "" with
  | .error f => .error f
  | .ok (str, q) => if isAt s q '"' then .ok (str, q + 1) else stop q [.label "basic string"]

/-- A literal string whose opening apostrophe is at `p`. -/
def literalString (p : Nat) : Step String :=
  let q := skip s isLiteralChar (p + 1)
  if isAt s q '\'' then .ok (slice s (p + 1) q, q + 1) else stop q [.label "literal string"]

/-- Blanks and line breaks. -/
def blanksAndBreaks : Nat → Nat → Nat
  | 0, p => p
  | fuel + 1, p =>
    match newline s p with
    | some q => blanksAndBreaks fuel q
    | none => if (at? s p).any isBlank then blanksAndBreaks fuel (ws s p) else p

/-- A backslash ending a line in a multi-line basic string, with the blanks and line breaks it
swallows; repeated. -/
def lineContinuation : Nat → Nat → Option Nat
  | 0, _ => none
  | fuel + 1, p =>
    if isAt s p '\\' then
      match newline s (ws s (p + 1)) with
      | some q =>
        let r := blanksAndBreaks s (s.size + 1) q
        some ((lineContinuation fuel r).getD r)
      | none => none
    else none

/-- One piece of the body of a multi-line basic string at `p`. -/
def mlBasicPiece (p : Nat) : Except Failure (Option (String × Nat)) :=
  match at? s p with
  | none => .ok none
  | some c =>
    if isBasicChar c then
      let q := skip s isBasicChar p
      .ok (some (slice s p q, q))
    else if c = '\\' then
      match lineContinuation s (s.size + 1) p with
      | some q => .ok (some ("", q))
      | none =>
        match escaped s p with
        | .ok (ch, q) => .ok (some (ch.toString, q))
        | .error f => if f.cut then .error f else .ok none
    else
      match newline s p with
      | some q => .ok (some ("\n", q))
      | none => .ok none

/-- Pieces of a multi-line basic string body, as many as there are. -/
def mlBasicPieces : Nat → Nat → String → Step String
  | 0, p, acc => .ok (acc, p)
  | fuel + 1, p, acc =>
    match mlBasicPiece s p with
    | .error f => .error f
    | .ok none => .ok (acc, p)
    | .ok (some (t, q)) => mlBasicPieces fuel q (acc ++ t)

/-- One or two quote marks followed by something `term` accepts. -/
def quotesBefore (q : Char) (term : Nat → Bool) (p : Nat) : Option (String × Nat) :=
  if isAt s p q && isAt s (p + 1) q && term (p + 2) then some (String.ofList [q, q], p + 2)
  else if isAt s p q && term (p + 1) then some (q.toString, p + 1) else none

/-- The body of a multi-line basic string: pieces, with runs of one or two quote marks between
them and before the closing marks. -/
def mlBasicBody (p : Nat) : Step String :=
  let notQuote := fun q => (at? s q).any (· != '"')
  let closing := fun q => hasAt s q "\"\"\""
  let rec quoted : Nat → Nat → String → Step String
    | 0, p, acc => .ok (acc, p)
    | fuel + 1, p, acc =>
      match quotesBefore s '"' notQuote p with
      | none => .ok (acc, p)
      | some (marks, q) =>
        match mlBasicPiece s q with
        | .error f => .error f
        | .ok none => .ok (acc, q)
        | .ok (some (t, r)) =>
          match mlBasicPieces s (s.size + 1) r (acc ++ marks ++ t) with
          | .error f => .error f
          | .ok (acc, r) => quoted fuel r acc
  match mlBasicPieces s (s.size + 1) p "" with
  | .error f => .error f
  | .ok (acc, q) =>
    match quoted (s.size + 1) q acc with
    | .error f => .error f
    | .ok (acc, q) =>
      match quotesBefore s '"' closing q with
      | some (marks, r) => .ok (acc ++ marks, r)
      | none => .ok (acc, q)

/-- A multi-line basic string whose opening marks are at `p`. -/
def mlBasicString (p : Nat) : Step String :=
  within [.label "multiline basic string"] <|
    let q := p + 3
    let q := (newline s q).getD q
    match mlBasicBody s q with
    | .error f => .error { f with cut := true }
    | .ok (body, r) => if hasAt s r "\"\"\"" then .ok (body, r + 3) else stop r []

/-- One character or line break of a multi-line literal string. -/
def mlLiteralPiece (p : Nat) : Option Nat :=
  if (at? s p).any isLiteralChar then some (p + 1) else newline s p

/-- Characters and line breaks of a multi-line literal string, as many as there are. -/
def mlLiteralPieces : Nat → Nat → Nat
  | 0, p => p
  | fuel + 1, p =>
    match mlLiteralPiece s p with
    | some q => mlLiteralPieces fuel q
    | none => p

/-- A multi-line literal string whose opening marks are at `p`. -/
def mlLiteralString (p : Nat) : Step String :=
  let notApostrophe := fun q => (at? s q).any (· != '\'')
  let closing := fun q => hasAt s q "'''"
  let rec quoted : Nat → Nat → Nat
    | 0, p => p
    | fuel + 1, p =>
      match quotesBefore s '\'' notApostrophe p with
      | none => p
      | some (_, q) =>
        match mlLiteralPiece s q with
        | none => p
        | some r => quoted fuel (mlLiteralPieces s (s.size + 1) r)
  let start := (newline s (p + 3)).getD (p + 3)
  let q := quoted (s.size + 1) (mlLiteralPieces s (s.size + 1) start)
  let q := match quotesBefore s '\'' closing q with
    | some (_, r) => r
    | none => q
  let body := (slice s start q).replace "\r\n" "\n"
  if hasAt s q "'''" then .ok (body, q + 3) else stop q [.label "multiline literal string"]

/-- A quoted string at `p`, of whichever of the four kinds its opening marks say. -/
def quotedString (p : Nat) : Step String :=
  if isAt s p '"' then
    if hasAt s p "\"\"\"" then mlBasicString s p else basicString s p
  else if hasAt s p "'''" then mlLiteralString s p else literalString s p

/-- Digits that `ok` accepts, single underscores allowed between them, from `p`. -/
def digitRun (ok : Char → Bool) : Nat → Nat → Step Unit
  | 0, p => .ok ((), p)
  | fuel + 1, p =>
    match at? s p with
    | some c =>
      if ok c then digitRun ok fuel (p + 1)
      else if c = '_' then
        if (at? s (p + 1)).any ok then digitRun ok fuel (p + 2)
        else stop (p + 1) [.expected "digit"]
      else .ok ((), p)
    | none => .ok ((), p)

/-- A sign, if there is one. -/
def afterSign (p : Nat) : Nat := if isAt s p '+' || isAt s p '-' then p + 1 else p

/-- A decimal integer: a sign, then `0` or digits not starting with `0`. -/
def decInt (p : Nat) : Step Unit :=
  let q := afterSign s p
  within [.label "integer"] <|
    match at? s q with
    | some c =>
      if '1' ≤ c && c ≤ '9' then digitRun s Char.isDigit (s.size + 1) (q + 1)
      else if c = '0' then .ok ((), q + 1)
      else .error (Failure.at q)
    | none => .error (Failure.at q)

/-- Digits, at least one, single underscores allowed between them. -/
def zeroPrefixable (p : Nat) : Step Unit :=
  if (at? s p).any Char.isDigit then digitRun s Char.isDigit (s.size + 1) (p + 1)
  else .error (Failure.at p)

/-- An exponent: `e`, a sign, digits. -/
def exponent (p : Nat) : Step Unit :=
  if isAt s p 'e' || isAt s p 'E' then cutting (zeroPrefixable s (afterSign s (p + 1)))
  else .error (Failure.at p)

/-- A fraction: `.` and digits. -/
def fraction (p : Nat) : Step Unit :=
  if isAt s p '.' then cutting (within [.expected "digit"] (zeroPrefixable s (p + 1)))
  else .error (Failure.at p)

/-- The text of a float: an integer part, then an exponent or a fraction with an optional
exponent. -/
def floatText (p : Nat) : Step Unit :=
  match decInt s p with
  | .error f => .error f
  | .ok ((), q) =>
    match exponent s q with
    | .ok r => .ok r
    | .error f =>
      if f.cut then .error f
      else
        match fraction s q with
        | .error f => .error f
        | .ok ((), r) =>
          match exponent s r with
          | .ok r => .ok r
          | .error f => if f.cut then .error f else .ok ((), r)

end Reading

section Reading

variable (s : Array Char)

/-- A float: its text, or `inf` or `nan` with a sign; an infinite value is refused. -/
def float (p : Nat) : Step Float :=
  within [.label "floating-point number"] <|
    match floatText s p with
    | .ok ((), q) =>
      let f := Decimal.decimalFloat ((slice s p q).replace "_" "")
      if f == 1.0 / 0.0 then stop p [] else .ok (f, q)
    | .error f =>
      if f.cut then .error f
      else
        let q := afterSign s p
        let negative := isAt s p '-'
        if hasAt s q "inf" then .ok (if negative then -(1.0 / 0.0) else 1.0 / 0.0, q + 3)
        else if hasAt s q "nan" then .ok (0.0 / 0.0, q + 3)
        else .error (Failure.at q)

/-- An integer in base 16, 8 or 2 after its prefix at `p`. -/
def radixInt (base : Nat) (ok : Char → Bool) (what : String) (p : Nat) : Step Int :=
  let digits : Step Unit := within [.label what] <|
    if (at? s (p + 2)).any ok then cutting (digitRun s ok (s.size + 1) (p + 3))
    else stop (p + 2) []
  match digits with
  | .error f => .error { f with cut := true }
  | .ok ((), q) =>
    let v := digitsValue base ((s.extract (p + 2) q).toList.filter (· != '_'))
    if v < Nat.pow 2 63 then .ok (v, q) else stop p [] (some "number too large to fit in target type")

/-- An integer: decimal, or with a `0x`, `0o` or `0b` prefix. -/
def integer (p : Nat) : Step Int :=
  if isAt s p '0' && isAt s (p + 1) 'x' then radixInt s 16 isHexDigit "hexadecimal integer" p
  else if isAt s p '0' && isAt s (p + 1) 'o' then
    radixInt s 8 (fun c => '0' ≤ c && c ≤ '7') "octal integer" p
  else if isAt s p '0' && isAt s (p + 1) 'b' then
    radixInt s 2 (fun c => c = '0' || c = '1') "binary integer" p
  else
    match decInt s p with
    | .error f => .error f
    | .ok ((), q) =>
      let t := (s.extract p q).toList.filter (· != '_')
      let negative := t.head? == some '-'
      let magnitude : Int := digitsValue 10 (t.filter Char.isDigit)
      let v := if negative then -magnitude else magnitude
      if v ≥ Int.pow 2 63 then stop p [] (some "number too large to fit in target type")
      else if v < -Int.pow 2 63 then stop p [] (some "number too small to fit in target type")
      else .ok (v, q)

/-- Exactly `n` digits at `p` (more digits may follow), and their value. -/
def fixedDigits (n : Nat) (p : Nat) : Option (Nat × Nat) :=
  let q := skipUpTo s Char.isDigit n p
  if q - p = n then some (digitsValue 10 (s.extract p q).toList, q) else none

/-- Two digits with a value in a range; a value out of range fails with a reason at `p`. -/
def boundedPair (lo hi : Nat) (p : Nat) : Step Nat :=
  match fixedDigits s 2 p with
  | none => .error (Failure.at p)
  | some (v, q) =>
    if lo ≤ v && v ≤ hi then .ok (v, q)
    else .error ⟨p, false, [], some "value is out of range"⟩

/-- Two digits, zero-padded. -/
def twoDigits (n : Nat) : String := if n < 10 then "0" ++ toString n else toString n

/-- A calendar date `YYYY-MM-DD`, as text. -/
def fullDate (p : Nat) : Step String :=
  match fixedDigits s 4 p with
  | none => .error (Failure.at p)
  | some (year, q) =>
    if !isAt s q '-' then .error (Failure.at q)
    else
      match cutting (boundedPair s 1 12 (q + 1)) with
      | .error f => .error f
      | .ok (month, r) =>
        if !isAt s r '-' then stop r []
        else
          match cutting (boundedPair s 1 31 (r + 1)) with
          | .error f => .error f
          | .ok (day, e) =>
            let leap := year % 4 == 0 && (year % 100 != 0 || year % 400 == 0)
            let most := if month = 2 then (if leap then 29 else 28)
              else if month = 4 || month = 6 || month = 9 || month = 11 then 30 else 31
            if day > most then stop (r + 1) [] (some "value is out of range")
            else
              let yearText := String.ofList (List.replicate (4 - (toString year).length) '0') ++
                toString year
              .ok (yearText ++ "-" ++ twoDigits month ++ "-" ++ twoDigits day, e)

/-- A time of day `HH:MM:SS` with an optional fraction, as text (trailing zeros of the fraction
dropped, at most nine digits kept). -/
def partialTime (p : Nat) : Step String :=
  match boundedPair s 0 23 p with
  | .error f => .error f
  | .ok (hour, q) =>
    if !isAt s q ':' then .error (Failure.at q)
    else
      match cutting (boundedPair s 0 59 (q + 1)) with
      | .error f => .error f
      | .ok (minute, r) =>
        if !isAt s r ':' then stop r []
        else
          match cutting (boundedPair s 0 60 (r + 1)) with
          | .error f => .error f
          | .ok (second, e) =>
            let base := twoDigits hour ++ ":" ++ twoDigits minute ++ ":" ++ twoDigits second
            if isAt s e '.' && (at? s (e + 1)).any Char.isDigit then
              let f := skip s Char.isDigit (e + 1)
              let digits := ((s.extract (e + 1) f).toList.take 9)
              let padded := digits ++ List.replicate (9 - digits.length) '0'
              let trimmed := (padded.reverse.dropWhile (· = '0')).reverse
              .ok (if trimmed.isEmpty then base else base ++ "." ++ String.ofList trimmed, f)
            else .ok (base, e)

/-- A time offset: `Z`, or a sign with hours and minutes. -/
def timeOffset (p : Nat) : Step String :=
  within [.label "time offset"] <|
    if isAt s p 'Z' || isAt s p 'z' then .ok ("Z", p + 1)
    else if isAt s p '+' || isAt s p '-' then
      match cutting (boundedPair s 0 23 (p + 1)) with
      | .error f => .error f
      | .ok (hours, q) =>
        if !isAt s q ':' then stop q []
        else
          match cutting (boundedPair s 0 59 (q + 1)) with
          | .error f => .error f
          | .ok (minutes, r) =>
            let sign := if isAt s p '-' && hours * 60 + minutes != 0 then "-" else "+"
            .ok (sign ++ twoDigits hours ++ ":" ++ twoDigits minutes, r)
    else .error (Failure.at p)

/-- A date with an optional time and offset, or a time alone, as normalized text. -/
def dateTime (p : Nat) : Step String :=
  let dated : Step String := within [.label "date-time"] <|
    match fullDate s p with
    | .error f => .error f
    | .ok (date, q) =>
      if isAt s q 'T' || isAt s q 't' || isAt s q ' ' then
        match partialTime s (q + 1) with
        | .error f => if f.cut then .error f else .ok (date, q)
        | .ok (time, r) =>
          match timeOffset s r with
          | .ok (off, e) => .ok (date ++ "T" ++ time ++ off, e)
          | .error f => if f.cut then .error f else .ok (date ++ "T" ++ time, r)
      else .ok (date, q)
  match dated with
  | .ok r => .ok r
  | .error f => if f.cut then .error f else within [.label "time"] (partialTime s p)

/-- A value starting with a digit or a sign: a date or time, a float or an integer. -/
def numberLike (p : Nat) : Step Node :=
  match dateTime s p with
  | .ok (t, q) => .ok (.datetime t, q)
  | .error f =>
    if f.cut then .error f
    else
      match float s p with
      | .ok (x, q) => .ok (.float x, q)
      | .error f =>
        if f.cut then .error f
        else
          match integer s p with
          | .ok (i, q) => .ok (.int i, q)
          | .error f => .error f

/-- A bare or quoted key part, with the blanks around it. -/
def keyPart (p : Nat) : Step String :=
  let q := ws s p
  let part : Step String :=
    if isAt s q '"' then basicString s q
    else if isAt s q '\'' then literalString s q
    else
      let r := skip s isBareKeyChar q
      if r = q then .error (Failure.at q) else .ok (slice s q r, r)
  match part with
  | .error f => .error f
  | .ok (k, r) => .ok (k, ws s r)

/-- Key parts joined by dots. -/
def keyParts : Nat → Nat → List String → Step (List String)
  | 0, p, acc => .ok (acc, p)
  | fuel + 1, p, acc =>
    if isAt s p '.' then
      match keyPart s (p + 1) with
      | .ok (k, q) => keyParts fuel q (acc ++ [k])
      | .error f => if f.cut then .error f else .ok (acc, p)
    else .ok (acc, p)

/-- A key: one or more parts joined by dots, fewer than eighty. -/
def key (p : Nat) : Step (List String) :=
  let parts : Step (List String) := within [.label "key"] <|
    match keyPart s p with
    | .error f => .error f
    | .ok (k, q) => keyParts s (s.size + 1) q [k]
  match parts with
  | .error f => .error f
  | .ok (ks, q) =>
    if ks.length ≥ 80 then .error ⟨p, false, [], some "recursion limit exceeded"⟩ else .ok (ks, q)

mutual

/-- A value, with `depth` more levels of arrays and inline tables allowed inside it. -/
def value : Nat → Nat → Step Node
  | depth, p =>
    match at? s p with
    | none => .error (Failure.at p)
    | some c =>
      if c = '"' || c = '\'' then
        match quotedString s p with
        | .ok (t, q) => .ok (.str t, q)
        | .error f => .error f
      else if c = '[' then array depth p
      else if c = '{' then inlineTable depth p
      else if c = '+' || c = '-' || c.isDigit then numberLike s p
      else if c = '_' then
        match within [.expected "leading digit"] (integer s p) with
        | .ok (i, q) => .ok (.int i, q)
        | .error f => .error f
      else if c = '.' then
        match within [.expected "leading digit"] (float s p) with
        | .ok (x, q) => .ok (.float x, q)
        | .error f => .error f
      else if c = 't' then
        within stringContext (if hasAt s p "true" then .ok (.bool true, p + 4) else stop p [])
      else if c = 'f' then
        within stringContext (if hasAt s p "false" then .ok (.bool false, p + 5) else stop p [])
      else if c = 'i' then
        within stringContext
          (if hasAt s p "inf" then .ok (.float (1.0 / 0.0), p + 3) else .error (Failure.at p))
      else if c = 'n' then
        within stringContext
          (if hasAt s p "nan" then .ok (.float (0.0 / 0.0), p + 3) else .error (Failure.at p))
      else .error ⟨p, false, stringContext, none⟩

/-- An array whose opening bracket is at `p`. -/
def array : Nat → Nat → Step Node
  | 0, p => stop (p + 1) [] (some "recursion limit exceeded")
  | d + 1, p =>
    match arrayItems d (s.size + 1) (p + 1) with
    | .error f => .error { f with cut := true }
    | .ok (items, q) =>
      match blankLines s (s.size + 1) q with
      | .error f => .error { f with cut := true }
      | .ok ((), r) =>
        if isAt s r ']' then .ok (.array items, r + 1)
        else stop r [.label "array", .expected (literal ']')]

/-- One item of an array with the blanks, comments and line breaks around it. -/
def arrayValue : Nat → Nat → Step Node
  | d, p =>
    match blankLines s (s.size + 1) p with
    | .error f => .error f
    | .ok ((), q) =>
      match value d q with
      | .error f => .error f
      | .ok (v, r) =>
        match blankLines s (s.size + 1) r with
        | .error f => .error f
        | .ok ((), e) => .ok (v, e)

/-- The items of an array, separated by commas, with an optional trailing comma. -/
def arrayItems : Nat → Nat → Nat → Step (List Node)
  | d, fuel, p =>
    match arrayValue d p with
    | .error f => if f.cut then .error f else .ok ([], p)
    | .ok (v, q) =>
      match moreItems d fuel q [v] with
      | .error f => .error f
      | .ok (items, r) => .ok (items, if isAt s r ',' then r + 1 else r)

/-- Further items after commas. -/
def moreItems : Nat → Nat → Nat → List Node → Step (List Node)
  | _, 0, p, acc => .ok (acc, p)
  | d, fuel + 1, p, acc =>
    if isAt s p ',' then
      match arrayValue d (p + 1) with
      | .ok (v, q) => moreItems d fuel q (acc ++ [v])
      | .error f => if f.cut then .error f else .ok (acc, p)
    else .ok (acc, p)

/-- An inline table whose opening brace is at `p`. -/
def inlineTable : Nat → Nat → Step Node
  | 0, p => stop (p + 1) [] (some "recursion limit exceeded")
  | d + 1, p =>
    let q := p + 1
    match inlinePairs d (s.size + 1) q with
    | .error f => .error { f with cut := true }
    | .ok (pairs, r) =>
      let r := ws s r
      match inlineEntries pairs with
      | .error cause => stop q [] (some cause)
      | .ok entries =>
        if isAt s r '}' then .ok (.inline false false entries, r + 1)
        else stop r [.label "inline table", .expected (literal '}')]

/-- One `key = value` pair of an inline table. -/
def inlinePair : Nat → Nat → Step (List String × String × Node)
  | d, p =>
    match key s p with
    | .error f => .error f
    | .ok (ks, q) =>
      if !isAt s q '=' then stop q [.expected (literal '.'), .expected (literal '=')]
      else
        match value d (ws s (q + 1)) with
        | .error f => .error { f with cut := true }
        | .ok (v, r) => .ok ((ks.dropLast, ks.getLastD "", v), ws s r)

/-- The pairs of an inline table, separated by commas. -/
def inlinePairs : Nat → Nat → Nat → Step (List (List String × String × Node))
  | d, fuel, p =>
    match inlinePair d p with
    | .error f => if f.cut then .error f else .ok ([], p)
    | .ok (pair, q) => morePairs d fuel q [pair]

/-- Further pairs after commas. -/
def morePairs : Nat → Nat → Nat → List (List String × String × Node) →
    Step (List (List String × String × Node))
  | _, 0, p, acc => .ok (acc, p)
  | d, fuel + 1, p, acc =>
    if isAt s p ',' then
      match inlinePair d (p + 1) with
      | .ok (pair, q) => morePairs d fuel q (acc ++ [pair])
      | .error f => if f.cut then .error f else .ok (acc, p)
    else .ok (acc, p)

end

/-- The deepest nesting of arrays and inline tables. -/
def maxDepth : Nat := 79

/-- A failure to find the end of a line, as reported after a value or a header. -/
def endOfLine (f : Failure) : Failure :=
  { f with cut := true, contexts := f.contexts ++ [.expected (literal '\n'), .expected (literal '#')] }

/-- A `key = value` line, up to and including its line break. -/
def keyval (p : Nat) : Step (List String × String × Node) :=
  match key s p with
  | .error f => .error f
  | .ok (ks, q) =>
    if !isAt s q '=' then stop q [.expected (literal '.'), .expected (literal '=')]
    else
      match value s maxDepth (ws s (q + 1)) with
      | .error f => .error { f with cut := true }
      | .ok (v, r) =>
        match lineTrailing s r with
        | .error f => .error (endOfLine f)
        | .ok ((), e) => .ok ((ks.dropLast, ks.getLastD "", v), e)

/-- A table header at `p`: its path, whether it is an array-of-tables header, and the place
after its line. -/
def header (p : Nat) : Step (List String × Bool) :=
  let isArray := hasAt s p "[["
  let width := if isArray then 2 else 1
  within [.label "table header"] <|
    match cutting (key s (p + width)) with
    | .error f => .error f
    | .ok (ks, q) =>
      let closes := if isArray then hasAt s q "]]" else isAt s q ']'
      if !closes then stop q [.expected (literal '.'), .expected (literal ']')]
      else
        match lineTrailing s (q + width) with
        | .error f => .error (endOfLine f)
        | .ok ((), r) => .ok ((ks, isArray), r)

/-- Why a document could not be read: at a place, or found only at the end. -/
inductive DocFailure where
  | placed (f : Failure)
  | unplaced (message : String)

/-- Read the lines of a document from `p`. -/
def lines : Nat → Nat → DocState → Except DocFailure DocState
  | 0, _, st => .ok st
  | fuel + 1, p, st =>
    match at? s p with
    | none => .ok st
    | some c =>
      let next : Except DocFailure (DocState × Nat) :=
        if c = '#' then
          let q := (comment s p).getD p
          match lineEnding s q with
          | some r => .ok (st, r)
          | none => .error (.placed ⟨q, true, [], none⟩)
        else if c = '[' then
          match header s p with
          | .error f => .error (.placed f)
          | .ok ((path, isArray), q) =>
            let started := if isArray then st.startArrayTable path else st.startTable path
            match started with
            | .ok st => .ok (st, q)
            | .error cause => .error (.placed ⟨p, true, [.label "table header"], some cause⟩)
        else if c = '\n' || c = '\r' then
          match newline s p with
          | some q => .ok (st, q)
          | none => .error (.placed (Failure.at p))
        else
          match keyval s p with
          | .error f => .error (.placed f)
          | .ok ((path, k, v), q) =>
            match st.onKeyval path k v with
            | .ok st => .ok (st, q)
            | .error cause => .error (.placed ⟨p, true, [], some cause⟩)
      match next with
      | .error e => .error e
      | .ok (st, q) => lines fuel (ws s q) st

end Reading

/-- The number of bytes the characters take in UTF-8. -/
def byteLength (cs : List Char) : Nat := cs.foldl (fun n c => n + c.utf8Size) 0

/-- Line and column (both from 0) of a place in a text. The place is read as a byte: the column
counts characters up to a character of one byte, but bytes up to the first byte of a longer
character. The end of the text is one column past its last character. -/
def position (s : Array Char) (pos : Nat) : Nat × Nat :=
  if s.size = 0 then (0, 0)
  else
    let atEnd := s.size ≤ pos
    let c := if atEnd then s.size - 1 else pos
    let before := (s.extract 0 c).toList
    let lineStart := match before.reverse.findIdx? (· = '\n') with
      | some k => c - k
      | none => 0
    let line := ((s.extract 0 lineStart).toList.filter (· = '\n')).length
    let column :=
      if atEnd then c - lineStart + 1
      else if (s[c]?.map Char.utf8Size).getD 1 = 1 then c - lineStart
      else byteLength (s.extract lineStart c).toList
    (line, column)

/-- A failure shown with its place: a caret under each byte of the character there, at least
one and no further than the end of the line. -/
def showFailure (text : String) (s : Array Char) (f : Failure) : String :=
  let (line, column) := position s f.pos
  let lineNum := line + 1
  let gutter := String.ofList (List.replicate ((toString lineNum).length + 1) ' ')
  let content := (text.splitOn "\n").getD line ""
  let width := min ((s[f.pos]?.map Char.utf8Size).getD 0) (content.utf8ByteSize - column)
  "TOML parse error at line " ++ toString lineNum ++ ", column " ++ toString (column + 1) ++ "\n" ++
    gutter ++ "|\n" ++ toString lineNum ++ " | " ++ content ++ "\n" ++
    gutter ++ "|" ++ String.ofList (List.replicate (column + 1) ' ') ++
    String.ofList (List.replicate (max width 1) '^') ++ "\n" ++ f.message ++ "\n"

mutual

/-- A document node as a raw value; dates and times become text. -/
def Node.toRaw (o : Origin) : Node → Raw
  | .str t => .str o t
  | .int i => .int o i
  | .float f => .float o f
  | .bool b => .bool o b
  | .datetime t => .str o t
  | .array items => .list o (itemsToRaw o items)
  | .inline _ _ es => .table o (entriesToRaw o es)
  | .table _ _ es => .table o (entriesToRaw o es)
  | .tables ts => .list o (tablesToRaw o ts)

/-- Array items as raw values. -/
def itemsToRaw (o : Origin) : List Node → List Raw
  | [] => []
  | n :: rest => n.toRaw o :: itemsToRaw o rest

/-- Table entries as raw entries. -/
def entriesToRaw (o : Origin) : List (String × Node) → List (String × Raw)
  | [] => []
  | (k, n) :: rest => (k, n.toRaw o) :: entriesToRaw o rest

/-- The tables of an array of tables as raw tables. -/
def tablesToRaw (o : Origin) : List (List (String × Node)) → List Raw
  | [] => []
  | es :: rest => .table o (entriesToRaw o es) :: tablesToRaw o rest

end

/-- Read a TOML document into its top-level entries, each value from `origin`; a failure is its
shown text. -/
def read (origin : Origin) (text : String) : Except String (List (String × Raw)) :=
  let s := text.toList.toArray
  let start := if isAt s 0 '﻿' then 1 else 0
  let st : DocState := ⟨[], [], [], false⟩
  let finished : Except DocFailure DocState := do
    let st ← lines s (s.size + 1) (ws s start) st
    match st.finalize with
    | .ok st => .ok st
    | .error m => .error (.unplaced m)
  match finished with
  | .error (.placed f) => .error (showFailure text s f)
  | .error (.unplaced m) => .error (m ++ "\n")
  | .ok st => .ok (entriesToRaw origin st.root)

end Stowage.Formats.Toml
