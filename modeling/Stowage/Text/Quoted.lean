import Stowage.Text.Printable
/-!
Quoted text as messages show it.

A string is shown between double quotes and a character between single quotes. Inside, the
backslash, the quote of the enclosing kind, tab, carriage return, line feed and NUL take a
backslash form (`\\`, `\"` or `\'`, `\t`, `\r`, `\n`, `\0`); a combining mark or a character
that is not printable is written `\u{…}` with its code point in lowercase hexadecimal without
leading zeros; every other character is written as it is.
-/
namespace Stowage.Text

/-- Lowercase hexadecimal digits of `n`, without leading zeros. -/
def hexText (n : Nat) : String := String.ofList (Nat.toDigits 16 n)

/-- How one character is written inside quotes; `quoteMark` is the enclosing quote. -/
def escapeShown (quoteMark : Char) (c : Char) : String :=
  match c with
  | '\x00' => "\\0"
  | '\t' => "\\t"
  | '\r' => "\\r"
  | '\n' => "\\n"
  | '\\' => "\\\\"
  | c =>
    if c = quoteMark then "\\" ++ c.toString
    else if isCombining c || !isPrintable c then "\\u\x7b" ++ hexText c.toNat ++ "\x7d"
    else c.toString

/-- A string between double quotes, escaped. -/
def quoteString (s : String) : String :=
  "\"" ++ String.join (s.toList.map (escapeShown '"')) ++ "\""

/-- A character between single quotes, escaped. -/
def quoteChar (c : Char) : String :=
  "'" ++ escapeShown '\'' c ++ "'"

end Stowage.Text
