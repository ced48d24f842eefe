import Stowage.Version.Tag
/-!
Write lineages.

A lineage is the history of tags that led to a revision, oldest first. Its text form joins the
tags' texts with `;`; reading splits on `;` and drops every piece that reads as the unversioned
tag.

Appending the write of `node` puts the next tag on top. A run of consecutive tags by one node at
the end is capped: once it has reached `max 1 maxRun` tags, the new tag replaces the last one
instead of growing the lineage.

Two lineages compare as `same`, `higher` (the left one descends from the right one), `lower` or
`conflict` (neither descends from the other).
-/
namespace Stowage.Version

/-- A history of tags, oldest first. -/
structure Lineage where
  tags : List Tag
  deriving BEq, DecidableEq, Repr, Inhabited

/-- Where one lineage stands relative to another. -/
inductive Comparison where
  | same
  | higher
  | lower
  | conflict
  deriving BEq, DecidableEq, Repr, Inhabited

namespace Comparison

/-- The relation seen from the other side. -/
def reverse : Comparison → Comparison
  | .higher => .lower
  | .lower => .higher
  | c => c

/-- Lowercase name. -/
def render : Comparison → String
  | .same => "same"
  | .higher => "higher"
  | .lower => "lower"
  | .conflict => "conflict"

/-- Capitalised name. -/
def debugText : Comparison → String
  | .same => "Same"
  | .higher => "Higher"
  | .lower => "Lower"
  | .conflict => "Conflict"

/-- Greater magnitude is higher, smaller is lower, equal is the same. -/
def ofOrdering : Ordering → Comparison
  | .gt => .higher
  | .lt => .lower
  | .eq => .same

end Comparison

namespace Lineage

/-- The lineage of a record never written. -/
def empty : Lineage := ⟨[]⟩

/-- Read the `;`-joined text form, dropping unversioned pieces. -/
def parse (text : String) : Lineage :=
  ⟨(((text.toList.splitOn ';').map String.ofList).map Tag.parse).filter (fun t => !t.isUnversioned)⟩

/-- The `;`-joined text form. -/
def render (l : Lineage) : String := ";".intercalate (l.tags.map Tag.render)

/-- The debug form `VersionLineage(<text>)`. -/
def debugText (l : Lineage) : String := "VersionLineage(" ++ l.render ++ ")"

/-- The lineage of one tag; empty for the unversioned tag. -/
def ofTag (t : Tag) : Lineage := if t.isUnversioned then empty else ⟨[t]⟩

/-- The current revision's tag. -/
def last? (l : Lineage) : Option Tag := l.tags.getLast?

/-- Number of tags. -/
def length (l : Lineage) : Nat := l.tags.length

/-- Whether the lineage was never written. -/
def isEmpty (l : Lineage) : Bool := l.tags.isEmpty

/-- Whether the current revision is a deletion. -/
def isDeleted (l : Lineage) : Bool := l.last?.any Tag.isDelete

/-- The tag `node` would write next. -/
def nextTag (l : Lineage) (node : String) (isDelete : Bool) : Tag :=
  (l.last?.getD Tag.unversioned).next node isDelete

/-- Number of tags at the end written by `node`. -/
def trailingRun (l : Lineage) (node : String) : Nat :=
  (l.tags.reverse.takeWhile (fun t => t.node == node)).length

/-- The lineage after `node` writes on top of this one, with trailing runs capped at
`max 1 maxRun`. -/
def append (l : Lineage) (node : String) (isDelete : Bool) (maxRun : Nat) : Lineage :=
  let next := l.nextTag node isDelete
  if l.trailingRun node ≥ max maxRun 1 then ⟨l.tags.dropLast ++ [next]⟩
  else ⟨l.tags ++ [next]⟩

/-- Whether `chain`, read newest first, records `target`: the first tag of the target's
magnitude decides by its node; when the chain skips that magnitude, the oldest tag above it
must be the target's node (the target sat in a collapsed run). -/
def descendsFrom (chain : List Tag) (target : Tag) : Bool :=
  go chain.reverse none
where
  go : List Tag → Option Tag → Bool
    | [], newer => newer.any fun t => t.node == target.node
    | t :: older, newer =>
      if t.magnitude > target.magnitude then go older (some t)
      else if t.magnitude = target.magnitude then t.node == target.node
      else newer.any fun t => t.node == target.node

/-- Where `a` stands relative to `b`. -/
def compare (a b : Lineage) : Comparison :=
  match a.last?, b.last? with
  | some mine, some theirs =>
    if mine = theirs then .same
    else
      let byMagnitude := Ord.compare mine.magnitude theirs.magnitude
      if a.length = 1 ∨ b.length = 1 then
        if byMagnitude = .eq ∧ mine.node ≠ theirs.node then .conflict
        else Comparison.ofOrdering byMagnitude
      else
        match byMagnitude with
        | .gt => if descendsFrom a.tags theirs then .higher else .conflict
        | .lt => if descendsFrom b.tags mine then .lower else .conflict
        | .eq =>
          if mine.node = theirs.node ∧ a.tags.dropLast.getLast? = b.tags.dropLast.getLast? then
            .same
          else .conflict
  | _, _ =>
    match a.isEmpty, b.isEmpty with
    | true, true => .same
    | true, false => .lower
    | _, _ => .higher

end Lineage

end Stowage.Version
