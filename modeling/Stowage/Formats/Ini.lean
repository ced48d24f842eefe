import Stowage.Settings.Raw
import Stowage.Text.Quoted
/-!
INI settings files.

A file is a run of sections (`[name]`) holding `key = value` or `key: value` properties; the
properties before the first section belong to the top level. A value runs to the end of its
line; when it starts with `"` or `'`, the text up to the matching quote (across lines if need
be) is taken first and the rest of the line is added as it is. Keys, section names and values
are trimmed of white space. A backslash escapes the next character (`\n`, `\t`, `\r`, `\0`,
`\a`, `\b`, `\x` and four hexadecimal digits, a line break to continue); a comment is a line
starting with `;` or `#` in its first column. A key runs until `=` or `:`, across lines if need
be. Every value is text. Sections and properties are given in the order they are written, so
that of two of the same name the later can win.

A failure names the line and the column of the character where reading stopped, both from 1.
-/
namespace Stowage.Formats.Ini

open Stowage.Settings

/-- Why a file could not be read, and where. -/
structure Failure where
  line : Nat
  column : Nat
  message : String

/-- The reading position: what is left, the current character's line and column. -/
structure Cursor where
  rest : List Char
  line : Nat
  column : Nat

namespace Cursor

/-- The current character. -/
def current (c : Cursor) : Option Char := c.rest.head?

/-- Move past the current character. -/
def bump (c : Cursor) : Cursor :=
  match c.rest with
  | [] => c
  | _ :: more =>
    match more.head? with
    | some '\n' => ⟨more, c.line + 1, 0⟩
    | some _ => ⟨more, c.line, c.column + 1⟩
    | none => ⟨more, c.line, c.column⟩

/-- A failure at the cursor. -/
def failure (c : Cursor) (message : String) : Failure := ⟨c.line, c.column, message⟩

/-- Fail at the cursor. -/
def fail {α : Type} (c : Cursor) (message : String) : Except Failure α :=
  .error (c.failure message)

/-- Skip characters `ok` accepts. -/
def skipWhile (ok : Char → Bool) : Nat → Cursor → Cursor
  | 0, c => c
  | fuel + 1, c => if c.current.any ok then skipWhile ok fuel c.bump else c

/-- The cursor at the start of a text: on its first character, column 1. -/
def start (text : String) : Cursor :=
  match text.toList with
  | [] => ⟨[], 0, 0⟩
  | c :: rest => ⟨c :: rest, if c = '\n' then 1 else 0, if c = '\n' then 0 else 1⟩

end Cursor

/-- How an optional character is written in messages. -/
def optionText : Option Char → String
  | some c => "Some(" ++ Text.quoteChar c ++ ")"
  | none => "None"

/-- How a set of stopping characters is written in a message about the end of the file. -/
def endpointText (stops : List (Option Char)) : String :=
  "[" ++ ", ".intercalate (stops.map optionText) ++ "]"

/-- The message for the end of the file where one of the stopping characters was expected. -/
def eofMessage (stops : List (Option Char)) : String :=
  "expecting \"" ++ endpointText stops ++ "\" but found EOF."

/-- The value of hexadecimal text with an optional leading `+`, if it is one. -/
def hexValue? (code : List Char) : Option Nat :=
  let digits := match code with
    | '+' :: rest => rest
    | other => other
  let value := fun (ch : Char) =>
    if ch.isDigit then some (ch.toNat - 48)
    else if 'a' ≤ ch && ch ≤ 'f' then some (ch.toNat - 87)
    else if 'A' ≤ ch && ch ≤ 'F' then some (ch.toNat - 55)
    else none
  if digits.isEmpty then none
  else digits.foldlM (fun n ch => (n * 16 + ·) <$> value ch) 0

/-- Whether the cursor is at one of the stopping characters (`none` is the end of the file). -/
def atStop (stops : List (Option Char)) (c : Cursor) : Bool := stops.contains c.current

/-- The four characters of a `\x` escape, read as a hexadecimal code point. -/
def hexEscape (stops : List (Option Char)) (c : Cursor) : Except Failure (Char × Cursor) := do
  let mut c := c
  let mut code : List Char := []
  for _ in [0:4] do
    c := c.bump
    match c.current with
    | none => throw (c.failure (eofMessage stops))
    | some ch =>
      if ch = '\\' then
        c := c.bump
        if c.current != some '\n' then
          throw (c.failure ("expecting \"\\\\n\" but found \"" ++ optionText c.current ++ "\"."))
      code := code ++ [ch]
  match hexValue? code with
  | some v =>
    if v < 0xD800 || (0xE000 ≤ v && v ≤ 0x10FFFF) then return (Char.ofNat v, c)
    else c.fail "unknown character in \\xHH form"
  | none => c.fail "unknown character in \\xHH form"

/-- Read until one of the stopping characters, with escapes. -/
def readUntil (stops : List (Option Char)) : Nat → Cursor → String → Except Failure (String × Cursor)
  | 0, c, acc => .ok (acc, c)
  | fuel + 1, c, acc =>
    if atStop stops c then .ok (acc, c)
    else
      match c.current with
      | none => c.fail (eofMessage stops)
      | some '\\' =>
        let c := c.bump
        match c.current with
        | none => c.fail (eofMessage stops)
        | some e =>
          let simple := fun (ch : Char) => readUntil stops fuel c.bump (acc.push ch)
          match e with
          | '0' => simple '\x00'
          | 'a' => simple '\x07'
          | 'b' => simple '\x08'
          | 't' => simple '\t'
          | 'r' => simple '\r'
          | 'n' => simple '\n'
          | '\n' => readUntil stops fuel c.bump acc
          | 'x' =>
            match hexEscape stops c with
            | .ok (ch, c) => readUntil stops fuel c.bump (acc.push ch)
            | .error f => .error f
          | other => simple other
      | some ch => readUntil stops fuel c.bump (acc.push ch)

/-- Trim white space at both ends. -/
def trim (t : String) : String :=
  String.ofList ((t.toList.dropWhile Text.isBlank).reverse.dropWhile Text.isBlank).reverse

/-- The line breaks and the end of the file, where an unquoted value stops. -/
def lineEnd : List (Option Char) := [some '\n', some '\r', none]

/-- A value after `=` or `:`: the quoted text when it starts with a quote, then the rest of the
line, trimmed. -/
def readValue (fuel : Nat) (c : Cursor) : Except Failure (String × Cursor) := do
  let c := Cursor.skipWhile (fun ch => Text.isBlank ch && ch != '\n' && ch != '\r') fuel c.bump
  let (value, c) ← match c.current with
    | some '"' => quotedThenRest '"' c
    | some '\'' => quotedThenRest '\'' c
    | _ => readUntil lineEnd fuel c ""
  return (trim value, c)
where
  /-- The text up to the closing quote `q`, then the rest of the line. -/
  quotedThenRest (q : Char) (c : Cursor) : Except Failure (String × Cursor) := do
    let (quoted, c) ← readUntil [some q] fuel c.bump ""
    let (rest, c) ← readUntil lineEnd fuel c.bump ""
    return (quoted ++ rest, c)

/-- The sections of a file in order, each with its properties in order; `none` is the top
level. -/
abbrev Sections := List (Option String × List (String × String))

/-- Add a property to the last section of a name, making the section if there is none. -/
def addProperty (secs : Sections) (sec : Option String) (k v : String) : Sections :=
  match secs.findIdx? (·.1 == sec) with
  | none => secs ++ [(sec, [(k, v)])]
  | some _ =>
    let lastIdx := secs.length - 1 - ((secs.reverse.findIdx? (·.1 == sec)).getD 0)
    secs.modify lastIdx fun (s, props) => (s, props ++ [(k, v)])

/-- Read the sections of a file. -/
def readSections (text : String) : Except Failure Sections := do
  let fuel := text.length + 2
  let blank := Text.isBlank
  let mut c := Cursor.skipWhile blank fuel (Cursor.start text)
  let mut secs : Sections := []
  let mut key := ""
  let mut sec : Option String := none
  for _ in [0:fuel] do
    match c.current with
    | none => break
    | some ch =>
      if ch = ';' || ch = '#' then
        if c.column > 1 then throw (c.failure "doesn't support inline comment")
        c := Cursor.skipWhile (· != '\n') fuel c
      else if ch = '[' then
        let (name, c') ← readUntil [some ']'] fuel c.bump ""
        c := if c'.current == some ']' then c'.bump else c'
        sec := some (trim name)
        secs := secs ++ [(sec, [])]
      else if ch = '=' || ch = ':' then
        if key.isEmpty then throw (c.failure "missing key")
        let (v, c') ← readValue fuel c
        secs := addProperty secs sec key v
        key := ""
        c := c'
      else
        let (k, c') ← readUntil [some '=', some ':'] fuel c ""
        key := trim k
        c := c'
      c := Cursor.skipWhile blank fuel c
  return secs

/-- Read an INI file into top-level entries, in the order they are written, each value text
from `origin`; a failure is its line, column and reason. -/
def read (origin : Origin) (text : String) : Except String (List (String × Raw)) :=
  match readSections text with
  | .error f => .error (toString (f.line + 1) ++ ":" ++ toString (f.column + 1) ++ " " ++ f.message)
  | .ok secs =>
    .ok (secs.flatMap fun (sec, props) =>
      let entries := props.map fun (k, v) => (k, Raw.str origin v)
      match sec with
      | some name => [(name, .table origin entries)]
      | none => entries)

end Stowage.Formats.Ini
