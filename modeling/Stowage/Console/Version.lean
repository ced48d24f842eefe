import Stowage.Console.Input
import Stowage.Version.Lineage
import Stowage.Json.Write
namespace Stowage.Console

open Stowage.Json Stowage.Version

def tagView (t : Tag) : Value :=
  Value.ofFields [("text", .str t.render), ("node", .str t.node), ("ordinal", .ofInt t.ordinal),
    ("magnitude", .ofNat t.magnitude), ("is_delete", .bool t.isDelete),
    ("is_unversioned", .bool t.isUnversioned)]

def lineageView (l : Lineage) : List (String × Value) :=
  [("text", .str l.render), ("len", .ofNat l.length),
    ("tags", .arr (l.tags.map fun t => .str t.render)),
    ("last", Value.ofOption (l.last?.map Tag.render)), ("is_deleted", .bool l.isDeleted),
    ("is_empty", .bool l.isEmpty)]

/-- `tag_parse`: read a tag's text. -/
def tagParse (cmd : Value) : Decode Value := do
  return tagView (Tag.parse (← str cmd "text"))

/-- `tag_new`: a tag from a node and an ordinal. -/
def tagNew (cmd : Value) : Decode Value := do
  return tagView (Tag.make (← str cmd "node") (← i64 cmd "ordinal"))

/-- `tag_next`: the tag a node writes on top of a read tag. -/
def tagNext (cmd : Value) : Decode Value := do
  let t := Tag.parse (← str cmd "tag")
  return tagView (t.next (← str cmd "node") (← boolOr cmd "is_delete" false))

/-- `lineage`: read a lineage; with a node, also its run and next tags. -/
def lineageInfo (cmd : Value) : Decode Value := do
  let l := Lineage.parse (← str cmd "text")
  match ← strOpt cmd "node" with
  | none => return Value.ofFields (lineageView l)
  | some node =>
    return Value.ofFields (lineageView l ++
      [("trailing_run", .ofNat (l.trailingRun node)),
       ("next_live", .str (l.nextTag node false).render),
       ("next_delete", .str (l.nextTag node true).render)])

/-- `lineage_append`: one write on top of a lineage. -/
def lineageAppend (cmd : Value) : Decode Value := do
  let l := Lineage.parse (← str cmd "text")
  let node ← str cmd "node"
  let after := l.append node (← boolOr cmd "is_delete" false) (← u64 cmd "max_run")
  return Value.ofFields [("result", Value.ofFields (lineageView after)),
    ("trailing_run", .ofNat (after.trailingRun node)),
    ("vs_before", .str (after.compare l).render)]

/-- `lineage_compare`: both directions of a comparison. -/
def lineageCompare (cmd : Value) : Decode Value := do
  let a := Lineage.parse (← str cmd "a")
  let b := Lineage.parse (← str cmd "b")
  return Value.ofFields [("ab", .str (a.compare b).render), ("ba", .str (b.compare a).render)]

def writeStep (start : Lineage) (cap : Nat) (prev : Lineage) (w : Value) :
    Decode (Lineage × Value) := do
  let node ← str w "node"
  let next := prev.append node (← boolOr w "delete" false) cap
  return (next, Value.ofFields [("text", .str next.render),
    ("vs_prev", .str (next.compare prev).render), ("prev_vs", .str (prev.compare next).render),
    ("vs_start", .str (next.compare start).render), ("run", .ofNat (next.trailingRun node))])

/-- `lineage_writes`: a series of writes from a start lineage. -/
def lineageWrites (cmd : Value) : Decode Value := do
  let start := Lineage.parse (← str cmd "start")
  let cap ← u64 cmd "cap"
  let writes ← arr cmd "writes"
  let (_, answers) ← writes.foldlM (fun (acc : Lineage × List Value) w => do
    let (next, answer) ← writeStep start cap acc.1 w
    return (next, answer :: acc.2)) (start, [])
  return .arr answers.reverse

/-- `lineage_forms`: the text, debug, JSON and conversion forms of a lineage. -/
def lineageForms (cmd : Value) : Decode Value := do
  let text ← str cmd "text"
  let l := Lineage.parse text
  let forms := [("debug", .str l.debugText), ("serde", .str (quote l.render)),
    ("serde_back", .str (Lineage.parse l.render).render),
    ("from_string", .str (Lineage.parse text).render),
    ("tag_debug", .str (Tag.parse text).debugText),
    ("from_tag", .str (Lineage.ofTag (Tag.parse text)).render)]
  match ← strOpt cmd "other" with
  | none => return Value.ofFields forms
  | some other =>
    let c := l.compare (Lineage.parse other)
    return Value.ofFields (forms ++ [("compare", .str c.render),
      ("reverse", .str c.reverse.render), ("comparison_debug", .str c.debugText)])

end Stowage.Console
