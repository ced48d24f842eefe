import Stowage.Json.Value
/-!
Reading JSON text into `Value`.

The reader accepts RFC 8259 JSON with at most 127 nested arrays and objects. Numbers follow one
rule: digits with no fraction and no exponent stay integers while they fit (`[0, 2^64)` for
non-negative text, `[-2^63, -1]` for negative text); anything else becomes a double computed as
the decimal significand (the first digits that fit in 64 bits) times or divided by one power of
ten, which is exact whenever the significand has at most 15 digits and the power at most 22.
`-0` is the double `-0.0`.

A failure names its cause and the line and column where it was noticed, both counted from 1,
columns in bytes.
-/
namespace Stowage.Json

/-- Why a text is not JSON. -/
inductive ReadFailure where
  | eofWhileParsingList
  | eofWhileParsingObject
  | eofWhileParsingString
  | eofWhileParsingValue
  | expectedColon
  | expectedListCommaOrEnd
  | expectedObjectCommaOrEnd
  | expectedSomeIdent
  | expectedSomeValue
  | invalidEscape
  | invalidNumber
  | numberOutOfRange
  | controlCharacterWhileParsingString
  | keyMustBeAString
  | loneLeadingSurrogateInHexEscape
  | trailingComma
  | trailingCharacters
  | unexpectedEndOfHexEscape
  | recursionLimitExceeded
  deriving BEq, Repr

/-- The words for each cause. -/
def ReadFailure.text : ReadFailure → String
  | .eofWhileParsingList => "EOF while parsing a list"
  | .eofWhileParsingObject => "EOF while parsing an object"
  | .eofWhileParsingString => "EOF while parsing a string"
  | .eofWhileParsingValue => "EOF while parsing a value"
  | .expectedColon => "expected `:`"
  | .expectedListCommaOrEnd => "expected `,` or `]`"
  | .expectedObjectCommaOrEnd => "expected `,` or `\x7d`"
  | .expectedSomeIdent => "expected ident"
  | .expectedSomeValue => "expected value"
  | .invalidEscape => "invalid escape"
  | .invalidNumber => "invalid number"
  | .numberOutOfRange => "number out of range"
  | .controlCharacterWhileParsingString =>
    "control character (\\u0000-\\u001F) found while parsing a string"
  | .keyMustBeAString => "key must be a string"
  | .loneLeadingSurrogateInHexEscape => "lone leading surrogate in hex escape"
  | .trailingComma => "trailing comma"
  | .trailingCharacters => "trailing characters"
  | .unexpectedEndOfHexEscape => "unexpected end of hex escape"
  | .recursionLimitExceeded => "recursion limit exceeded"

/-- A failure and the number of characters read when it was noticed. -/
structure ReadError where
  failure : ReadFailure
  offset : Nat

/-- Where reading stands: the characters left and how many were read. -/
structure Cursor where
  rest : List Char
  read : Nat

namespace Cursor

/-- The next character, not consumed. -/
def peek? (c : Cursor) : Option Char := c.rest.head?

/-- Consume one character. -/
def bump (c : Cursor) : Cursor := ⟨c.rest.drop 1, c.read + 1⟩

/-- A failure placed after the characters read. -/
def fail (c : Cursor) (f : ReadFailure) : ReadError := ⟨f, c.read⟩

/-- A failure placed after the next character, as when it was looked at but not consumed. -/
def failAhead (c : Cursor) (f : ReadFailure) : ReadError :=
  ⟨f, if c.rest.isEmpty then c.read else c.read + 1⟩

/-- Skip blanks: space, tab, line feed and carriage return. -/
def skipBlanks (c : Cursor) : Cursor :=
  let blank := fun ch => ch = ' ' || ch = '\n' || ch = '\t' || ch = '\r'
  let skipped := c.rest.takeWhile blank
  ⟨c.rest.drop skipped.length, c.read + skipped.length⟩

end Cursor

/-- A reading step: a result and the cursor after it, or a failure. -/
abbrev Reading (α : Type) := Except ReadError (α × Cursor)

/-- Match the rest of a literal word. -/
def expectWord (c : Cursor) : List Char → Except ReadError Cursor
  | [] => .ok c
  | w :: ws =>
    match c.peek? with
    | none => .error (c.fail .eofWhileParsingValue)
    | some ch => if ch = w then expectWord c.bump ws else .error (c.bump.fail .expectedSomeIdent)

/-- The value of a hexadecimal digit. -/
def hexValue (ch : Char) : Option Nat :=
  if '0' ≤ ch ∧ ch ≤ '9' then some (ch.toNat - '0'.toNat)
  else if 'a' ≤ ch ∧ ch ≤ 'f' then some (ch.toNat - 'a'.toNat + 10)
  else if 'A' ≤ ch ∧ ch ≤ 'F' then some (ch.toNat - 'A'.toNat + 10)
  else none

/-- Four hexadecimal digits of a `\u` escape. -/
def hexQuad (c : Cursor) : Reading Nat :=
  go c 0 4
where
  go (c : Cursor) (acc : Nat) : Nat → Reading Nat
    | 0 => .ok (acc, c)
    | n + 1 =>
      match c.peek? with
      | none => .error (c.fail .eofWhileParsingString)
      | some ch =>
        match hexValue ch with
        | some d => go c.bump (acc * 16 + d) n
        | none => .error (c.bump.fail .invalidEscape)

/-- The character after a `\u` escape whose first unit is `n`, pairing surrogates. -/
def unicodeEscape (c : Cursor) (n : Nat) : Reading Char :=
  if 0xDC00 ≤ n ∧ n ≤ 0xDFFF then .error (c.fail .loneLeadingSurrogateInHexEscape)
  else if n < 0xD800 ∨ 0xDBFF < n then .ok (Char.ofNat n, c)
  else
    match c.peek? with
    | none => .error (c.fail .eofWhileParsingString)
    | some '\\' =>
      let c := c.bump
      match c.peek? with
      | none => .error (c.fail .eofWhileParsingString)
      | some 'u' =>
        match hexQuad c.bump with
        | .error e => .error e
        | .ok (n2, c) =>
          if n2 < 0xDC00 ∨ 0xDFFF < n2 then .error (c.fail .loneLeadingSurrogateInHexEscape)
          else .ok (Char.ofNat (((n - 0xD800) <<< 10 ||| (n2 - 0xDC00)) + 0x10000), c)
      | some _ => .error (c.bump.fail .unexpectedEndOfHexEscape)
    | some _ => .error (c.bump.fail .unexpectedEndOfHexEscape)

/-- The body of a string after its opening quote, up to and including the closing quote. -/
def stringBody (c : Cursor) : Reading String :=
  go c [] (c.rest.length + 1)
where
  go (c : Cursor) (acc : List Char) : Nat → Reading String
    | 0 => .error (c.fail .eofWhileParsingString)
    | fuel + 1 =>
      match c.peek? with
      | none => .error (c.fail .eofWhileParsingString)
      | some '"' => .ok (String.ofList acc.reverse, c.bump)
      | some '\\' =>
        let c := c.bump
        match c.peek? with
        | none => .error (c.fail .eofWhileParsingString)
        | some e =>
          let c := c.bump
          let simple : Option Char := match e with
            | '"' => some '"' | '\\' => some '\\' | '/' => some '/'
            | 'b' => some '\x08' | 'f' => some '\x0c' | 'n' => some '\n'
            | 'r' => some '\r' | 't' => some '\t' | _ => none
          match simple with
          | some ch => go c (ch :: acc) fuel
          | none =>
            if e = 'u' then
              match hexQuad c with
              | .error err => .error err
              | .ok (n, c) =>
                match unicodeEscape c n with
                | .error err => .error err
                | .ok (ch, c) => go c (ch :: acc) fuel
            else .error (c.fail .invalidEscape)
      | some ch =>
        if ch.toNat < 0x20 then .error (c.bump.fail .controlCharacterWhileParsingString)
        else go c.bump (ch :: acc) fuel

/-- `10^i` as the nearest double. -/
def powerOfTen (i : Nat) : Float := Float.ofScientific 1 false i

/-- A decimal significand times `10^exponent` as a double: one multiplication or division by a
power of ten, after dividing by `10^308` while the power is out of range. `none` when the
result overflows. -/
def floatOfParts (negative : Bool) (significand : Nat) (exponent : Int) : Option Float :=
  let rec go (f : Float) (e : Int) : Nat → Option Float
    | 0 => some f
    | fuel + 1 =>
      if e.natAbs ≤ 308 then
        if 0 ≤ e then
          let g := f * powerOfTen e.natAbs
          if g.isInf then none else some g
        else some (f / powerOfTen e.natAbs)
      else if f == 0 then some f
      else if 0 ≤ e then none
      else go (f / powerOfTen 308) (e + 308) fuel
  (go (Float.ofNat significand) exponent 8).map fun f => if negative then -f else f

/-- The greatest 64-bit unsigned value. -/
def u64Max : Nat := Nat.pow 2 64 - 1

/-- Clamp to the signed 32-bit range, as exponent arithmetic saturates there. -/
def clampExponent (e : Int) : Int := max (-Int.pow 2 31) (min e (Int.pow 2 31 - 1))

/-- Leading decimal digits of the cursor. -/
def digitsAhead (c : Cursor) : List Char := c.rest.takeWhile Char.isDigit

/-- How many of the digits it takes for the value they spell, read from `acc`, to pass
`bound`; all of them when it never does. -/
def digitsToPass (bound acc : Nat) : List Char → Nat
  | [] => 0
  | d :: ds =>
    let next := acc * 10 + (d.toNat - '0'.toNat)
    if next > bound then 1 else digitsToPass bound next ds + 1

/-- An exponent part after `e` or `E`. An exponent too large for 32 signed bits is refused at
the digit that makes it so, unless it makes the number zero. -/
def exponentPart (c : Cursor) (negative : Bool) (significand : Nat) (start : Int) :
    Reading Float :=
  let c := c.bump
  let (positive, c) := match c.peek? with
    | some '+' => (true, c.bump)
    | some '-' => (false, c.bump)
    | _ => (true, c)
  match c.peek? with
  | none => .error (c.fail .eofWhileParsingValue)
  | some ch =>
    if !ch.isDigit then .error (c.bump.fail .invalidNumber)
    else
      let ds := digitsAhead c
      let c' : Cursor := ⟨c.rest.drop ds.length, c.read + ds.length⟩
      let value := ds.foldl (fun acc d => acc * 10 + (d.toNat - '0'.toNat)) 0
      if value > Nat.pow 2 31 - 1 then
        if significand ≠ 0 && positive then
          let k := digitsToPass (Nat.pow 2 31 - 1) 0 ds
          .error ((⟨c.rest.drop k, c.read + k⟩ : Cursor).fail .numberOutOfRange)
        else .ok (if negative then -0.0 else 0.0, c')
      else
        let e := clampExponent (if positive then start + value else start - value)
        match floatOfParts negative significand e with
        | some f => .ok (f, c')
        | none => .error (c'.fail .numberOutOfRange)

/-- Accumulate decimal digits onto `acc` while the value stays within 64 bits; the value and how
many digits were taken. -/
def takeDigits (acc : Nat) : List Char → Nat × Nat
  | [] => (acc, 0)
  | d :: ds =>
    let next := acc * 10 + (d.toNat - '0'.toNat)
    if next > u64Max then (acc, 0)
    else
      let (v, n) := takeDigits next ds
      (v, n + 1)

/-- Digits after the integer part: a fraction, then perhaps an exponent. -/
def fractionPart (c : Cursor) (negative : Bool) (significand : Nat) (start : Int) :
    Reading Float :=
  let c := c.bump
  let ds := digitsAhead c
  let (sig, taken) := takeDigits significand ds
  if ds.isEmpty then
    .error (if c.rest.isEmpty then c.failAhead .eofWhileParsingValue else c.failAhead .invalidNumber)
  else
    let c' : Cursor := ⟨c.rest.drop ds.length, c.read + ds.length⟩
    let e := clampExponent (start - taken)
    match c'.peek? with
    | some 'e' | some 'E' => exponentPart c' negative sig e
    | _ =>
      match floatOfParts negative sig e with
      | some f => .ok (f, c')
      | none => .error (c'.fail .numberOutOfRange)

/-- A number after its optional minus sign. -/
def number (c : Cursor) (negative : Bool) : Reading Number :=
  match c.peek? with
  | none => .error (c.fail .eofWhileParsingValue)
  | some ch =>
    if ch = '0' then
      let c := c.bump
      match c.peek? with
      | some d => if d.isDigit then .error (c.failAhead .invalidNumber) else afterInteger c 0
      | none => afterInteger c 0
    else if ch.isDigit then
      let ds := digitsAhead c
      -- the integer part is kept exactly while it fits 64 bits
      let full := ds.foldl (fun acc d => acc * 10 + (d.toNat - '0'.toNat)) 0
      if full ≤ u64Max then
        afterInteger ⟨c.rest.drop ds.length, c.read + ds.length⟩ full
      else
        let fit := takeDigits 0 ds
        let extra : Int := ds.length - fit.2
        let c' : Cursor := ⟨c.rest.drop ds.length, c.read + ds.length⟩
        let floatNum (r : Reading Float) : Reading Number :=
          r.map fun (f, c) => (.float f, c)
        match c'.peek? with
        | some '.' => floatNum (fractionPart c' negative fit.1 extra)
        | some 'e' | some 'E' => floatNum (exponentPart c' negative fit.1 extra)
        | _ =>
          match floatOfParts negative fit.1 extra with
          | some f => .ok (.float f, c')
          | none => .error (c'.fail .numberOutOfRange)
    else .error (c.bump.fail .invalidNumber)
where
  afterInteger (c : Cursor) (sig : Nat) : Reading Number :=
    match c.peek? with
    | some '.' => (fractionPart c negative sig 0).map fun (f, c) => (.float f, c)
    | some 'e' | some 'E' => (exponentPart c negative sig 0).map fun (f, c) => (.float f, c)
    | _ =>
      if !negative then .ok (.int sig, c)
      else if sig = 0 || sig > Nat.pow 2 63 then .ok (.float (-(Float.ofNat sig)), c)
      else .ok (.int (-(sig : Int)), c)

/-- Items of an array after `[`, each read by `item`. -/
def arrayItems (item : Cursor → Reading Value) (c : Cursor) : Reading (List Value) :=
  go c [] true (c.rest.length + 1)
where
  go (c : Cursor) (acc : List Value) (first : Bool) : Nat → Reading (List Value)
    | 0 => .error (c.fail .eofWhileParsingList)
    | fuel + 1 =>
      let c := c.skipBlanks
      let next : Except ReadError Cursor :=
        match c.peek? with
        | some ',' => if first then .ok c else .ok c.bump.skipBlanks
        | _ => .ok c
      match c.peek? with
      | some ']' => .ok (acc.reverse, c.bump)
      | none => .error (c.failAhead .eofWhileParsingList)
      | some ch =>
        if !first && ch != ',' then .error (c.failAhead .expectedListCommaOrEnd)
        else
          match next with
          | .error e => .error e
          | .ok c =>
            match c.peek? with
            | some ']' => .error (c.failAhead .trailingComma)
            | none => .error (c.failAhead .eofWhileParsingValue)
            | some _ =>
              match item c with
              | .error e => .error e
              | .ok (v, c) => go c (v :: acc) false fuel

/-- Fields of an object after `{`, values read by `item`. -/
def objectFields (item : Cursor → Reading Value) (c : Cursor) :
    Reading (List (String × Value)) :=
  go c [] true (c.rest.length + 1)
where
  go (c : Cursor) (acc : List (String × Value)) (first : Bool) :
      Nat → Reading (List (String × Value))
    | 0 => .error (c.fail .eofWhileParsingObject)
    | fuel + 1 =>
      let c := c.skipBlanks
      match c.peek? with
      | some '}' => .ok (acc.reverse, c.bump)
      | none => .error (c.failAhead .eofWhileParsingObject)
      | some ch =>
        if !first && ch != ',' then .error (c.failAhead .expectedObjectCommaOrEnd)
        else
          let c := if first then c else c.bump.skipBlanks
          match c.peek? with
          | some '"' =>
            match stringBody c.bump with
            | .error e => .error e
            | .ok (k, c) =>
              let c := c.skipBlanks
              match c.peek? with
              | some ':' =>
                match item c.bump with
                | .error e => .error e
                | .ok (v, c) => go c ((k, v) :: acc) false fuel
              | some _ => .error (c.failAhead .expectedColon)
              | none => .error (c.failAhead .eofWhileParsingObject)
          | some '}' => .error (c.failAhead .trailingComma)
          | some _ => .error (c.failAhead .keyMustBeAString)
          | none => .error (c.failAhead .eofWhileParsingValue)

/-- One value after optional blanks, with `depth` levels of nesting still allowed. -/
def value : Nat → Cursor → Reading Value
  | depth, c =>
    let c := c.skipBlanks
    match c.peek? with
    | none => .error (c.failAhead .eofWhileParsingValue)
    | some 'n' => (expectWord c.bump "ull".toList).map fun c => (.null, c)
    | some 't' => (expectWord c.bump "rue".toList).map fun c => (.bool true, c)
    | some 'f' => (expectWord c.bump "alse".toList).map fun c => (.bool false, c)
    | some '-' => (number c.bump true).map fun (n, c) => (.num n, c)
    | some '"' => (stringBody c.bump).map fun (s, c) => (.str s, c)
    | some '[' =>
      match depth with
      | 0 | 1 => .error (c.failAhead .recursionLimitExceeded)
      | d + 2 => (arrayItems (value (d + 1)) c.bump).map fun (xs, c) => (.arr xs, c)
    | some '{' =>
      match depth with
      | 0 | 1 => .error (c.failAhead .recursionLimitExceeded)
      | d + 2 => (objectFields (value (d + 1)) c.bump).map fun (fs, c) => (Value.ofFields fs, c)
    | some ch =>
      if ch.isDigit then (number c false).map fun (n, c) => (.num n, c)
      else .error (c.failAhead .expectedSomeValue)

/-- Read a whole text as one value; only blanks may follow it. -/
def readValue (text : String) : Except ReadError Value :=
  match value 128 ⟨text.toList, 0⟩ with
  | .error e => .error e
  | .ok (v, c) =>
    let c := c.skipBlanks
    if c.rest.isEmpty then .ok v else .error (c.failAhead .trailingCharacters)

/-- Line and column (both from 1, columns in bytes) after the first `offset` characters. -/
def lineColumn (text : String) (offset : Nat) : Nat × Nat :=
  let before := text.toList.take offset
  let line := before.foldl (fun acc ch => acc + if ch = '\n' then 1 else 0) 1
  let lastLine := (before.reverse.takeWhile (· ≠ '\n'))
  (line, lastLine.foldl (fun acc ch => acc + ch.utf8Size) 0)

/-- The message of a failure to read `text`: cause, line and column. -/
def ReadError.message (e : ReadError) (text : String) : String :=
  let (line, column) := lineColumn text e.offset
  e.failure.text ++ " at line " ++ toString line ++ " column " ++ toString column

end Stowage.Json
