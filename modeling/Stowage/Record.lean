import Stowage.Json.Value
import Stowage.Identity
import Stowage.Fault
import Stowage.Version.Lineage
import Stowage.Instant
/-!
Records: the field maps that objects are stored as.

A record maps field names to JSON values, kept in name order. Names starting with `__` are
reserved for the four attributes the store stamps on every stored record: `__id` (identity
text), `__version` (lineage text), `__modified` (RFC 3339 text in UTC with milliseconds) and
`__owner` (the owning node, absent when there is none). The field API refuses reserved names;
`stamp` is the only way to write them.
-/
namespace Stowage

open Stowage.Json

/-- A field map, in name order, one value per name. -/
structure Record where
  fields : List (String × Value)
  deriving Inhabited

namespace Record

/-- The record without fields. -/
def empty : Record := ⟨[]⟩

/-- Whether a name is reserved for stamped attributes. -/
def isReserved (name : String) : Bool := name.startsWith "__"

/-- The value of a field. -/
def get? (r : Record) (name : String) : Option Value := r.fields.lookup name

/-- Put a value under any name. -/
def put (r : Record) (name : String) (v : Value) : Record := ⟨Value.insertField name v r.fields⟩

/-- Set a user field; reserved names are refused. -/
def set (r : Record) (name : String) (v : Value) : Outcome Record :=
  if isReserved name then
    .error (.invalidArgument ("field name " ++ Text.quoteString name ++ " uses the reserved prefix"))
  else .ok (r.put name v)

/-- Remove a field, answering its value. -/
def remove (r : Record) (name : String) : Record × Option Value :=
  (⟨r.fields.filter (·.1 != name)⟩, r.get? name)

/-- The user fields, reserved attributes left out. -/
def userFields (r : Record) : List (String × Value) :=
  r.fields.filter fun kv => !isReserved kv.1

/-- Write the reserved attributes; `__owner` is removed when there is no owner. -/
def stamp (r : Record) (id : Identity) (version : Version.Lineage) (modified : Instant)
    (owner : Option String) : Record :=
  let r := (r.put "__id" (.str id.render)).put "__version" (.str version.render)
  let r := r.put "__modified" (.str modified.render)
  match owner with
  | some o => r.put "__owner" (.str o)
  | none => (r.remove "__owner").1

/-- A reserved attribute's text, when it holds a string. -/
def reservedText? (r : Record) (name : String) : Option String :=
  (r.get? name).bind Value.asString?

/-- The stamped identity, when it reads as one. -/
def id? (r : Record) : Option Identity :=
  (r.reservedText? "__id").bind fun s => (Identity.parse s).toOption

/-- The stamped lineage; empty when never stamped. -/
def version (r : Record) : Version.Lineage :=
  match r.reservedText? "__version" with
  | some s => Version.Lineage.parse s
  | none => Version.Lineage.empty

/-- The stamped modification time, when it reads as RFC 3339 text. -/
def modified? (r : Record) : Option Instant := (r.reservedText? "__modified").bind Instant.parse?

/-- The stamped owner. -/
def owner? (r : Record) : Option String := r.reservedText? "__owner"

/-- A record of the user fields of a JSON object; anything else is refused. -/
def ofJson (v : Value) : Outcome Record :=
  match v with
  | .obj fields => fields.foldlM (fun r kv => r.set kv.1 kv.2) empty
  | _ => .error (.serialization "record must be a JSON object")

/-- The user fields as a JSON object. -/
def toJson (r : Record) : Value := .obj r.userFields

/-- All fields, reserved ones included, as a JSON object. -/
def toJsonAll (r : Record) : Value := .obj r.fields

end Record

end Stowage
