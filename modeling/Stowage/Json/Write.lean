import Stowage.Json.Value
import Stowage.Decimal.Shortest
/-!
Writing `Value` as JSON text.

Compact text has no blanks; pretty text puts each item on its own line, indented by two spaces
per level, with `": "` after a key. Objects come out in key order, as they are kept. Inside
strings only the quote, the backslash and the control characters below U+0020 are escaped:
the five with a short form (`\b`, `\t`, `\n`, `\f`, `\r`) use it, the others `\u00` and two
lowercase hexadecimal digits; everything else, non-ASCII included, is written as it is.
-/
namespace Stowage.Json

/-- Lowercase hexadecimal digit. -/
def hexDigit (n : Nat) : Char :=
  if n < 10 then Char.ofNat ('0'.toNat + n) else Char.ofNat ('a'.toNat + n - 10)

/-- The escaped form of one character inside a JSON string. -/
def escapeChar (c : Char) : List Char :=
  match c with
  | '"' => ['\\', '"']
  | '\\' => ['\\', '\\']
  | '\n' => ['\\', 'n']
  | '\t' => ['\\', 't']
  | '\r' => ['\\', 'r']
  | '\x08' => ['\\', 'b']
  | '\x0c' => ['\\', 'f']
  | c =>
    if c.toNat < 0x20 then ['\\', 'u', '0', '0', hexDigit (c.toNat / 16), hexDigit (c.toNat % 16)]
    else [c]

/-- A string as a quoted JSON string. -/
def quote (s : String) : String :=
  String.ofList ('"' :: (s.toList.flatMap escapeChar ++ ['"']))

/-- Text of a number. -/
def Number.render : Number → String
  | .int i => toString i
  | .float f => Decimal.Style.plain.float f

/-- Compact JSON text. -/
def Value.compact : Value → String
  | .null => "null"
  | .bool b => if b then "true" else "false"
  | .num n => n.render
  | .str s => quote s
  | .arr xs => "[" ++ items xs ++ "]"
  | .obj fs => "\x7b" ++ fields fs ++ "\x7d"
where
  items : List Value → String
    | [] => ""
    | [x] => Value.compact x
    | x :: xs => Value.compact x ++ "," ++ items xs
  fields : List (String × Value) → String
    | [] => ""
    | [(k, v)] => quote k ++ ":" ++ Value.compact v
    | (k, v) :: fs => quote k ++ ":" ++ Value.compact v ++ "," ++ fields fs

/-- Two spaces per level. -/
def indent (level : Nat) : String := String.ofList (List.replicate (2 * level) ' ')

/-- Pretty JSON text, nested at `level`. -/
def Value.prettyAt (level : Nat) : Value → String
  | .arr [] => "[]"
  | .obj [] => "\x7b\x7d"
  | .arr xs => "[\n" ++ items xs ++ "\n" ++ indent level ++ "]"
  | .obj fs => "\x7b\n" ++ fields fs ++ "\n" ++ indent level ++ "\x7d"
  | v => v.compact
where
  items : List Value → String
    | [] => ""
    | [x] => indent (level + 1) ++ Value.prettyAt (level + 1) x
    | x :: xs => indent (level + 1) ++ Value.prettyAt (level + 1) x ++ ",\n" ++ items xs
  fields : List (String × Value) → String
    | [] => ""
    | [(k, v)] => indent (level + 1) ++ quote k ++ ": " ++ Value.prettyAt (level + 1) v
    | (k, v) :: fs =>
      indent (level + 1) ++ quote k ++ ": " ++ Value.prettyAt (level + 1) v ++ ",\n" ++ fields fs

/-- Pretty JSON text. -/
def Value.pretty (v : Value) : String := v.prettyAt 0

end Stowage.Json
