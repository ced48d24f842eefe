/-!
Version tags.

A tag names the node that wrote a revision and a signed ordinal in the signed 64-bit range.
The magnitude of the ordinal orders revisions; a negative ordinal marks a deletion. The zero
ordinal is the "unversioned" tag, which has the empty node and the empty text.

Text form: the node, then `+` (live) or `-` (deleted), then the magnitude in lowercase
hexadecimal. Reading splits at the last mark, so nodes may contain marks; any text that is not
a non-empty node, a mark and hexadecimal digits of a magnitude from 1 to `2^63 - 1` reads as
the unversioned tag.
-/
namespace Stowage.Version

/-- The greatest signed 64-bit value. -/
def i64Max : Int := Int.pow 2 63 - 1

/-- One revision step written by one node. -/
structure Tag where
  node : String
  ordinal : Int
  deriving BEq, DecidableEq, Repr, Inhabited

namespace Tag

/-- The tag that stands for "no version". -/
def unversioned : Tag := ⟨"", 0⟩

/-- A tag; the zero ordinal gives the unversioned tag whatever the node. -/
def make (node : String) (ordinal : Int) : Tag :=
  if ordinal = 0 then unversioned else ⟨node, ordinal⟩

/-- The absolute ordinal, by which revisions are ordered. -/
def magnitude (t : Tag) : Nat := t.ordinal.natAbs

/-- Whether this is the unversioned tag. -/
def isUnversioned (t : Tag) : Bool := t.ordinal == 0

/-- Whether the revision is a deletion. -/
def isDelete (t : Tag) : Bool := t.ordinal < 0

/-- The tag `node` writes on top of this one: one more than this magnitude, stopping at
`2^63 - 1`, negated for a deletion. -/
def next (t : Tag) (node : String) (isDelete : Bool) : Tag :=
  let magnitude : Int := min (min (t.magnitude : Int) i64Max + 1) i64Max
  ⟨node, if isDelete then -magnitude else magnitude⟩

/-- Lowercase hexadecimal digits. -/
def hexDigits (n : Nat) : String := String.ofList (Nat.toDigits 16 n)

/-- Text form; empty for the unversioned tag. -/
def render (t : Tag) : String :=
  if t.isUnversioned then ""
  else t.node ++ (if t.isDelete then "-" else "+") ++ hexDigits t.magnitude

/-- The debug form `VersionTag(<text>)`. -/
def debugText (t : Tag) : String := "VersionTag(" ++ t.render ++ ")"

/-- Whether a character is an ASCII hexadecimal digit. -/
def isHexDigit (c : Char) : Bool :=
  c.isDigit || ('a' ≤ c && c ≤ 'f') || ('A' ≤ c && c ≤ 'F')

/-- Value of an ASCII hexadecimal digit. -/
def hexValue (c : Char) : Nat :=
  if c.isDigit then c.toNat - '0'.toNat
  else if 'a' ≤ c && c ≤ 'f' then c.toNat - 'a'.toNat + 10
  else c.toNat - 'A'.toNat + 10

/-- Split at the last `+` or `-`: the text before it, the mark and the text after it. -/
def splitAtLastMark (cs : List Char) : Option (List Char × Char × List Char) :=
  let after := cs.reverse.takeWhile (fun c => c != '+' && c != '-')
  if after.length = cs.length then none
  else
    let markAt := cs.length - after.length - 1
    some (cs.take markAt, cs.getD markAt '+', cs.drop (markAt + 1))

/-- Read the text form; malformed text gives the unversioned tag. -/
def parse (text : String) : Tag :=
  match splitAtLastMark text.toList with
  | none => unversioned
  | some (node, mark, digits) =>
    if node.isEmpty || digits.isEmpty || !digits.all isHexDigit then unversioned
    else
      let value := digits.foldl (fun acc c => acc * 16 + hexValue c) 0
      if value > i64Max then unversioned
      else make (String.ofList node) (if mark = '-' then -(value : Int) else value)

end Tag

end Stowage.Version
