import Stowage.Settings.Raw
import Stowage.Decimal.Nearest
/-!
JSON5 settings files.

JSON5 extends JSON with comments, unquoted keys, single-quoted strings, trailing commas,
hexadecimal numbers, `Infinity`, `NaN`, signs and leading or trailing points on numbers, and
line continuations in strings. The whole text is one value between blanks and comments; the
root of a settings file must be an object.

A text that does not read is reported at the furthest position any named part of the grammar
was tried, with the parts tried there: a part that failed because exactly one of its own parts
failed at the same place is represented by that part instead. The report shows the line and
column, the line itself with a caret under the place, and the parts expected, in grammar order.

Numbers without a point or exponent are 64-bit integers, hexadecimal ones within 32 unsigned
bits; others are doubles, and one that does not fit is refused. Only `Infinity`, `-Infinity`,
`NaN` and `-NaN` are read as doubles by name, so `+Infinity` and `+NaN` are refused as
integers.
-/
namespace Stowage.Formats.Json5

open Stowage.Settings

/-- The named parts of the grammar, in grammar order. -/
inductive Part where
  | endOfInput
  | array
  | boolean
  | charEscape
  | charLiteral
  | hexEscape
  | identifier
  | nulEscape
  | null
  | number
  | object
  | string
  | unicodeEscape
  deriving DecidableEq, Inhabited

/-- A part's name in reports. -/
def Part.name : Part → String
  | .endOfInput => "EOI"
  | .array => "array"
  | .boolean => "boolean"
  | .charEscape => "char_escape_sequence"
  | .charLiteral => "char_literal"
  | .hexEscape => "hex_escape_sequence"
  | .identifier => "identifier"
  | .nulEscape => "nul_escape_sequence"
  | .null => "null"
  | .number => "number"
  | .object => "object"
  | .string => "string"
  | .unicodeEscape => "unicode_escape_sequence"

/-- A part's place in grammar order. -/
def Part.rank : Part → Nat
  | .endOfInput => 0
  | .array => 1
  | .boolean => 2
  | .charEscape => 3
  | .charLiteral => 4
  | .hexEscape => 5
  | .identifier => 6
  | .nulEscape => 7
  | .null => 8
  | .number => 9
  | .object => 10
  | .string => 11
  | .unicodeEscape => 12

/-- The furthest position a part was tried and failed at, and the parts that failed there. -/
structure Attempts where
  pos : Nat := 0
  parts : List Part := []
  deriving Inhabited

/-- Reading keeps track of failed attempts. -/
abbrev Reader := StateM Attempts

/-- Note that part `r`, tried at `p`, failed; `before` attempts were noted at `p` when it
started. -/
def noteFailure (r : Part) (p before : Nat) : Reader Unit :=
  modify fun t =>
    let now := if t.pos == p then t.parts.length else 0
    if now > before && now - before == 1 then t
    else
      let t := if p == t.pos then { t with parts := t.parts.take before } else t
      let t := if p > t.pos then { pos := p, parts := [] } else t
      if p == t.pos then { t with parts := t.parts ++ [r] } else t

/-- Try a named part at `p`. -/
def attempt {α : Type} (r : Part) (p : Nat) (body : Reader (Option α)) : Reader (Option α) := do
  let t ← get
  let before := if t.pos == p then t.parts.length else 0
  match ← body with
  | some a => return some a
  | none =>
    noteFailure r p before
    return none

/-- A value as the text gives it. -/
inductive Node where
  | null
  | bool (b : Bool)
  | number (text : String)
  | str (s : String)
  | arr (items : List Node)
  | obj (entries : List (String × Node))
  deriving Inhabited

/-- Line terminators. -/
def isLineTerminator (c : Char) : Bool :=
  c == '\n' || c == '\r' || c == '\u2028' || c == '\u2029'

/-- Blanks between tokens: tabs, vertical tabs, form feeds, space separators, the byte-order
mark and line terminators. -/
def isBlank (c : Char) : Bool :=
  c == '\t' || c == '\x0b' || c == '\x0c' || c == ' ' || c == '\u00A0' || c == '\uFEFF' ||
    c == '\u1680' || ('\u2000' ≤ c && c ≤ '\u200A') || c == '\u202F' || c == '\u205F' ||
    c == '\u3000' || isLineTerminator c

/-- Letters that may start an identifier: ASCII letters and characters beyond ASCII that are
not blanks or punctuation. -/
def isLetter (c : Char) : Bool :=
  c.isAlpha || (c.toNat ≥ 0xAA && !isBlank c && c != '\u2028' && c != '\u2029' &&
    !('\u2010' ≤ c && c ≤ '\u2027') && c != '\u00D7' && c != '\u00F7')

/-- Characters that may continue an identifier besides those that start one. -/
def isIdentifierMark (c : Char) : Bool :=
  c.isDigit || c == '\u200C' || c == '\u200D' || c == '\u203F' || c == '\u2040' ||
    ('\u0300' ≤ c && c ≤ '\u036F')

/-- Hexadecimal digits. -/
def isHexDigit (c : Char) : Bool :=
  c.isDigit || ('a' ≤ c && c ≤ 'f') || ('A' ≤ c && c ≤ 'F')

/-- The value of hexadecimal digits. -/
def hexValue (ds : List Char) : Nat :=
  ds.foldl (fun n c =>
    n * 16 + (if c.isDigit then c.toNat - 48 else if c ≤ 'F' then c.toNat - 55 else c.toNat - 87)) 0

section Reading

variable (s : Array Char)

/-- Whether position `p` holds `c`. -/
def isAt (p : Nat) (c : Char) : Bool := s[p]? == some c

/-- Whether `word` stands at `p`. -/
def hasAt (p : Nat) (word : String) : Bool :=
  (word.toList.zipIdx.all fun (c, k) => s[p + k]? == some c)

/-- The end of a block comment whose body starts at `p`, if it is closed. -/
def blockCommentEnd (p : Nat) : Option Nat :=
  if h : p < s.size then
    if s[p] == '*' && isAt s (p + 1) '/' then some (p + 2) else blockCommentEnd (p + 1)
  else none
termination_by s.size - p

/-- The end of a line comment whose body starts at `p`: before the line terminator. -/
def lineCommentEnd (p : Nat) : Nat :=
  if h : p < s.size then if isLineTerminator s[p] then p else lineCommentEnd (p + 1) else p
termination_by s.size - p

/-- Skip blanks and comments; an unclosed block comment is not skipped. -/
def skip (p : Nat) : Nat :=
  if h : p < s.size then
    let c := s[p]
    if isBlank c then skip (p + 1)
    else if c == '/' && isAt s (p + 1) '*' then
      match blockCommentEnd s (p + 2) with
      | some q => if q > p then skip q else p
      | none => p
    else if c == '/' && isAt s (p + 1) '/' then
      let q := lineCommentEnd s (p + 2)
      if q > p then skip q else p
    else p
  else p
termination_by s.size - p

/-- The end of a run of digits accepted by `ok`. -/
def digitsEnd (ok : Char → Bool) (p : Nat) : Nat :=
  if h : p < s.size then if ok s[p] then digitsEnd ok (p + 1) else p else p
termination_by s.size - p

/-- A decimal integer: `0`, or a nonzero digit and more digits. -/
def decimalInteger (p : Nat) : Option Nat :=
  if isAt s p '0' then some (p + 1)
  else if s[p]?.any (fun c => '1' ≤ c && c ≤ '9') then some (digitsEnd s Char.isDigit (p + 1))
  else none

/-- An optional exponent. -/
def exponentEnd (p : Nat) : Nat :=
  if isAt s p 'e' || isAt s p 'E' then
    let q := if isAt s (p + 1) '+' || isAt s (p + 1) '-' then p + 2 else p + 1
    let r := digitsEnd s Char.isDigit q
    if r > q then r else p
  else p

/-- The end of a number's text at `p`. -/
def numberEnd (p : Nat) : Option Nat :=
  let q := if isAt s p '+' || isAt s p '-' then p + 1 else p
  let hexEnd := digitsEnd s isHexDigit (q + 2)
  if (hasAt s q "0x" || hasAt s q "0X") && hexEnd > q + 2 then some hexEnd
  else
    match decimalInteger s q with
    | some a =>
      if isAt s a '.' then some (exponentEnd s (digitsEnd s Char.isDigit (a + 1)))
      else some (exponentEnd s a)
    | none =>
      let f := digitsEnd s Char.isDigit (q + 1)
      if isAt s q '.' && f > q + 1 then some (exponentEnd s f)
      else if hasAt s q "Infinity" then some (q + 8)
      else if hasAt s q "NaN" then some (q + 3)
      else none

/-- The text between two positions. -/
def slice (p q : Nat) : String := String.ofList (s.extract p q).toList

/-- A character that is not a backslash or a line terminator, at `p`. -/
def charLiteral (p : Nat) : Reader (Option Char) :=
  attempt .charLiteral p (pure (s[p]?.filter fun c => c != '\\' && !isLineTerminator c))

/-- Four hexadecimal digits at `p`, as the character they name. -/
def unicodeEscape (p : Nat) : Reader (Option Nat) :=
  attempt .unicodeEscape p (pure <|
    let ds := (s.extract p (p + 4)).toList
    if ds.length == 4 && ds.all isHexDigit then some (hexValue ds) else none)

/-- The escape after a backslash at `p`: the text it stands for and where it ends. -/
def escape (p : Nat) : Reader (Option (String × Nat)) := do
  let simple : Option String := match s[p]? with
    | some c =>
      match c with
      | 'b' => some "\x08"
      | 'f' => some "\x0c"
      | 'n' => some "\n"
      | 'r' => some "\r"
      | 't' => some "\t"
      | 'v' => some "\x0b"
      | '\'' | '"' | '\\' => some c.toString
      | _ =>
        if c.isDigit || c == 'x' || c == 'u' || isLineTerminator c then none else some c.toString
    | none => none
  if let some t ← attempt .charEscape p (pure simple) then return some (t, p + 1)
  if let some _ ← attempt .nulEscape p (pure (if isAt s p '0' then some () else none)) then
    return some ("\x00", p + 1)
  if isAt s p 'x' then
    let hex ← attempt .hexEscape (p + 1) (pure <|
      let ds := (s.extract (p + 1) (p + 3)).toList
      if ds.length == 2 && ds.all isHexDigit then some (hexValue ds) else none)
    if let some v := hex then return some ((Char.ofNat v).toString, p + 3)
  if isAt s p 'u' then
    if let some v ← unicodeEscape s (p + 1) then return some ((Char.ofNat v).toString, p + 5)
  return none

/-- The characters of a string quoted by `quote`, from `p`: its text and where it ends, at the
closing quote. -/
def stringBody (quote : Char) (p : Nat) (text : String) : Reader (String × Nat) :=
  if h : p < s.size then do
    if s[p] == '\\' then
      if let some (t, q) ← escape s (p + 1) then
        if q > p then return ← stringBody quote q (text ++ t)
      if isAt s (p + 1) '\r' && isAt s (p + 2) '\n' then return ← stringBody quote (p + 3) text
      if s[p + 1]?.any isLineTerminator then return ← stringBody quote (p + 2) text
    if s[p] == quote then return (text, p)
    match ← charLiteral s p with
    | some c => stringBody quote (p + 1) (text.push c)
    | none => return (text, p)
  else do
    let _ ← charLiteral s p
    return (text, p)
termination_by s.size - p

/-- A quoted string at `p`. -/
def string (p : Nat) : Reader (Option (String × Nat)) :=
  attempt .string p do
    for quote in ['"', '\''] do
      if isAt s p quote then
        let (t, q) ← stringBody s quote (p + 1) ""
        if isAt s q quote then return some (t, q + 1)
    return none

/-- The rest of an identifier from `p`. -/
def identifierRest (p : Nat) (text : String) : Reader (String × Nat) :=
  if h : p < s.size then do
    let c := s[p]
    if isLetter c || c == '$' || c == '_' || isIdentifierMark c then
      match ← charLiteral s p with
      | some ch => identifierRest (p + 1) (text.push ch)
      | none => return (text, p)
    else if c == '\\' && isAt s (p + 1) 'u' then
      match ← unicodeEscape s (p + 2) with
      | some v => identifierRest (p + 6) (text.push (Char.ofNat v))
      | none => return (text, p)
    else return (text, p)
  else return (text, p)
termination_by s.size - p

/-- An unquoted key at `p`. -/
def identifier (p : Nat) : Reader (Option (String × Nat)) :=
  attempt .identifier p do
    match s[p]? with
    | some c =>
      if isLetter c || c == '$' || c == '_' then
        match ← charLiteral s p with
        | some ch => return some (← identifierRest s (p + 1) ch.toString)
        | none => return none
      else if c == '\\' && isAt s (p + 1) 'u' then
        match ← unicodeEscape s (p + 2) with
        | some v => return some (← identifierRest s (p + 6) (Char.ofNat v).toString)
        | none => return none
      else return none
    | none => return none

/-- A key: unquoted or quoted. -/
def key (p : Nat) : Reader (Option (String × Nat)) := do
  if let some r ← identifier s p then return some r
  string s p

mutual

/-- A value at `p`, with `n` levels of nesting left. -/
def value : Nat → Nat → Reader (Option (Node × Nat))
  | 0, _ => return none
  | n + 1, p => do
    if let some q ← attempt .null p (pure (if hasAt s p "null" then some (p + 4) else none)) then
      return some (.null, q)
    let bool := if hasAt s p "true" then some (true, p + 4)
      else if hasAt s p "false" then some (false, p + 5) else none
    if let some (b, q) ← attempt .boolean p (pure bool) then return some (.bool b, q)
    if let some (t, q) ← string s p then return some (.str t, q)
    if let some q ← attempt .number p (pure (numberEnd s p)) then
      return some (.number (slice s p q), q)
    if let some r ← attempt .object p (object n p) then return some r
    attempt .array p (array n p)

/-- An object at `p`. -/
def object : Nat → Nat → Reader (Option (Node × Nat))
  | 0, _ => return none
  | n + 1, p => do
    if !isAt s p '{' then return none
    let q := skip s (p + 1)
    if isAt s q '}' then return some (.obj [], q + 1)
    match ← pair n q with
    | none => return none
    | some (e, r) => members n r [e]

/-- The members of an object after the first, ending at its closing brace. -/
def members : Nat → Nat → List (String × Node) → Reader (Option (Node × Nat))
  | 0, _, _ => return none
  | n + 1, p, es => do
    let q := skip s p
    if isAt s q ',' then
      match ← pair n (skip s (q + 1)) with
      | some (e, r) => return ← members n r (es ++ [e])
      | none =>
        let r := skip s (q + 1)
        if isAt s r '}' then return some (.obj es, r + 1)
        return none
    if isAt s q '}' then return some (.obj es, q + 1)
    return none

/-- A member: a key, a colon and a value. -/
def pair : Nat → Nat → Reader (Option ((String × Node) × Nat))
  | 0, _ => return none
  | n + 1, p => do
    match ← key s p with
    | none => return none
    | some (k, q) =>
      let q := skip s q
      if !isAt s q ':' then return none
      match ← value n (skip s (q + 1)) with
      | some (v, r) => return some ((k, v), r)
      | none => return none

/-- An array at `p`. -/
def array : Nat → Nat → Reader (Option (Node × Nat))
  | 0, _ => return none
  | n + 1, p => do
    if !isAt s p '[' then return none
    let q := skip s (p + 1)
    if isAt s q ']' then return some (.arr [], q + 1)
    match ← value n q with
    | none => return none
    | some (v, r) => elements n r [v]

/-- The elements of an array after the first, ending at its closing bracket. -/
def elements : Nat → Nat → List Node → Reader (Option (Node × Nat))
  | 0, _, _ => return none
  | n + 1, p, vs => do
    let q := skip s p
    if isAt s q ',' then
      match ← value n (skip s (q + 1)) with
      | some (v, r) => return ← elements n r (vs ++ [v])
      | none =>
        let r := skip s (q + 1)
        if isAt s r ']' then return some (.arr vs, r + 1)
        return none
    if isAt s q ']' then return some (.arr vs, q + 1)
    return none

end

/-- The whole text: one value between blanks and comments. -/
def document : Reader (Option Node) := do
  let budget := 2 * s.size + 2
  match ← value s budget (skip s 0) with
  | none => return none
  | some (v, q) =>
    let q := skip s q
    attempt .endOfInput q (pure (if q == s.size then some v else none))

end Reading

/-- The line and column of a position: lines end at line feeds, columns count characters. -/
def lineColumn (s : Array Char) (pos : Nat) : Nat × Nat :=
  let before := (s.extract 0 pos).toList
  let line := before.count '\n' + 1
  let col := (before.reverse.takeWhile (· != '\n')).length + 1
  (line, col)

/-- The line holding a position, as the report shows it: line breaks drawn as symbols when the
position is at one, dropped otherwise. -/
def lineText (s : Array Char) (pos : Nat) : String :=
  let startPos := pos - ((s.extract 0 pos).toList.reverse.takeWhile (· != '\n')).length
  let rest := (s.extract pos s.size).toList
  let tail := match rest.findIdx? (· == '\n') with
    | some k => rest.take (k + 1)
    | none => rest
  let text := (s.extract startPos pos).toList ++ tail
  if s[pos]? == some '\n' || s[pos]? == some '\r' then
    String.ofList (text.flatMap fun c =>
      if c == '\r' then ['\u240D'] else if c == '\n' then ['\u240A'] else [c])
  else String.ofList (text.filter fun c => c != '\r' && c != '\n')

/-- The parts expected, as a report words them. -/
def expectedText (parts : List Part) : String :=
  let sorted := (parts.mergeSort fun a b => a.rank ≤ b.rank).eraseDups.map Part.name
  match sorted with
  | [] => "unknown parsing error"
  | [a] => "expected " ++ a
  | [a, b] => "expected " ++ a ++ " or " ++ b
  | _ => "expected " ++ ", ".intercalate sorted.dropLast ++ ", or " ++ sorted.getLast!

/-- The report of a text that does not read. -/
def report (s : Array Char) (t : Attempts) : String :=
  let (line, col) := lineColumn s t.pos
  let lineNo := toString line
  let pad := String.ofList (List.replicate lineNo.length ' ')
  let text := lineText s t.pos
  let underline := String.ofList ((text.toList.take (col - 1)).map fun c =>
    if c == '\t' then '\t' else ' ') ++ "^---"
  pad ++ "--> " ++ lineNo ++ ":" ++ toString col ++ "\n" ++
    pad ++ " |\n" ++
    lineNo ++ " | " ++ text ++ "\n" ++
    pad ++ " | " ++ underline ++ "\n" ++
    pad ++ " |\n" ++
    pad ++ " = " ++ expectedText t.parts

/-- The value of a hexadecimal number's digits, within 32 unsigned bits. -/
def hexNumber (t : String) : Except String Nat :=
  let v := hexValue (t.toList.drop 2)
  if v < Nat.pow 2 32 then .ok v else .error "error parsing hex"

/-- A number's value: integers without a point or exponent, others doubles. -/
def numberValue (origin : Origin) (t : String) : Except String Raw :=
  let isHex := t.length > 2 && (t.startsWith "0x" || t.startsWith "0X")
  let named := t == "Infinity" || t == "-Infinity" || t == "NaN" || t == "-NaN"
  let integral := !t.contains '.' && (isHex || (!t.contains 'e' && !t.contains 'E')) && !named
  let inRange := fun (i : Int) => -Int.pow 2 63 ≤ i && i < Int.pow 2 63
  if integral then
    if isHex then (fun v => .int origin (v : Int)) <$> hexNumber t
    else
      let (negative, ds) := match t.toList with
        | '-' :: rest => (true, rest)
        | '+' :: rest => (false, rest)
        | cs => (false, cs)
      let v : Int := Decimal.digitsNat ds
      let v := if negative then -v else v
      if !ds.isEmpty && ds.all Char.isDigit && inRange v then .ok (.int origin v)
      else .error "error parsing integer"
  else if t == "Infinity" then .ok (.float origin (1.0 / 0.0))
  else if t == "-Infinity" then .ok (.float origin (-(1.0 / 0.0)))
  else if t == "NaN" || t == "-NaN" then .ok (.float origin (0.0 / 0.0))
  else if isHex then (fun v => .float origin (Float.ofNat v)) <$> hexNumber t
  else
    match Decimal.standardFloat? t with
    | some f =>
      if f.isFinite then .ok (.float origin f) else .error "error parsing number: too large"
    | none => .error "error parsing number"

mutual

/-- A value as a raw setting. -/
def Node.toRaw (origin : Origin) : Node → Except String Raw
  | .null => .ok (.nil origin)
  | .bool b => .ok (.bool origin b)
  | .number t => numberValue origin t
  | .str t => .ok (.str origin t)
  | .arr items => .list origin <$> Node.itemsToRaw origin items
  | .obj entries => .table origin <$> Node.entriesToRaw origin entries

/-- Array items as raw values. -/
def Node.itemsToRaw (origin : Origin) : List Node → Except String (List Raw)
  | [] => .ok []
  | v :: rest => do
    let r ← Node.toRaw origin v
    return r :: (← Node.itemsToRaw origin rest)

/-- Members as raw entries; a later key replaces an earlier one. -/
def Node.entriesToRaw (origin : Origin) : List (String × Node) →
    Except String (List (String × Raw))
  | [] => .ok []
  | (k, v) :: rest => do
    let r ← Node.toRaw origin v
    let rs ← Node.entriesToRaw origin rest
    return if rs.any (·.1 == k) then rs else (k, r) :: rs

end

/-- Read a JSON5 file into its root value from `origin`. -/
def read (origin : Origin) (text : String) : Except String Raw :=
  let s := text.toList.toArray
  match (document s).run {} with
  | (none, t) => .error (report s t)
  | (some v, _) => v.toRaw origin

end Stowage.Formats.Json5
