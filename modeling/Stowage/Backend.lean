import Stowage.Query
/-!
The record store shared by the nodes of a cluster.

Records are stamped field maps kept in identity order. A save replaces a record only when the
stored lineage is the one the writer based its change on, and a create only when nothing is
stored; the lineage a write stores is the one stamped on its record. Failures can be injected:
the next calls of the store's operations fail with a backend error, one each.

Every stored change counts as a write and is delivered to the subscribers of the record's
kind, in the order they subscribed; delivering is the cluster's work, so the operations here
only say what changed.
-/
namespace Stowage

open Stowage.Json
open Stowage.Version

/-- A record as read from the store, with its reserved attributes split out. -/
structure Loaded where
  record : Record
  version : Lineage
  owner : Option String

/-- The reserved attributes of a stamped record. -/
def Loaded.ofStamped (r : Record) : Loaded := ⟨r, r.version, r.owner?⟩

/-- A change to one record, to be delivered to its kind's subscribers. -/
inductive ChangeKind where
  | new
  | update
  | delete
  | unknown
  deriving DecidableEq, Repr, Inhabited

/-- The change's name. -/
def ChangeKind.name : ChangeKind → String
  | .new => "new"
  | .update => "update"
  | .delete => "delete"
  | .unknown => "unknown"

/-- A change kind by name. -/
def ChangeKind.ofName? : String → Option ChangeKind
  | "new" => some .new
  | "update" => some .update
  | "delete" => some .delete
  | "unknown" => some .unknown
  | _ => none

/-- The shared record store. -/
structure Backend where
  /-- Stamped records in identity order. -/
  records : List (Identity × Record)
  /-- Calls left to fail. -/
  failures : Nat
  /-- Stored changes so far. -/
  writes : Nat
  /-- Subscribers by kind, in subscription order. -/
  watchers : List (String × Nat)
  deriving Inhabited

namespace Backend

/-- An empty store. -/
def empty : Backend := ⟨[], 0, 0, []⟩

/-- Put a record in its place in identity order, replacing one of the same identity. -/
def place (id : Identity) (r : Record) : List (Identity × Record) → List (Identity × Record)
  | [] => [(id, r)]
  | (k, s) :: rest =>
    match Identity.cmp id k with
    | .lt => (id, r) :: (k, s) :: rest
    | .eq => (id, r) :: rest
    | .gt => (k, s) :: place id r rest

/-- The stored record of an identity. -/
def get? (b : Backend) (id : Identity) : Option Record := b.records.lookup id

/-- Number of stored records. -/
def size (b : Backend) : Nat := b.records.length

/-- Make the next `n` calls fail. -/
def failNext (b : Backend) (n : Nat) : Backend := { b with failures := n }

/-- Pass the failure check of a call: an injected failure is used up and reported. -/
def check (b : Backend) : Backend × Outcome Unit :=
  match b.failures with
  | 0 => (b, .ok ())
  | n + 1 => ({ b with failures := n }, .error (.backend "injected failure"))

/-- Read a record. -/
def load (b : Backend) (id : Identity) : Backend × Outcome (Option Loaded) :=
  match b.check with
  | (b, .error f) => (b, .error f)
  | (b, .ok ()) => (b, .ok ((b.get? id).map Loaded.ofStamped))

/-- Replace a record whose stored lineage is `previous`; answers the stored lineage. -/
def save (b : Backend) (id : Identity) (r : Record) (previous : Lineage) :
    Backend × Outcome Lineage :=
  match b.check with
  | (b, .error f) => (b, .error f)
  | (b, .ok ()) =>
    let current := ((b.get? id).map Record.version).getD Lineage.empty
    if current.compare previous != .same then
      (b, .error (.versionConflict id.render previous.render current.render))
    else ({ b with records := place id r b.records }, .ok r.version)

/-- Store a record for an identity that has none. -/
def createNew (b : Backend) (id : Identity) (r : Record) : Backend × Outcome Lineage :=
  match b.check with
  | (b, .error f) => (b, .error f)
  | (b, .ok ()) =>
    match b.get? id with
    | some existing => (b, .error (.versionConflict id.render "" existing.version.render))
    | none => ({ b with records := place id r b.records }, .ok r.version)

/-- Delete a record; `false` when there was none. -/
def delete (b : Backend) (id : Identity) : Backend × Outcome Bool :=
  match b.check with
  | (b, .error f) => (b, .error f)
  | (b, .ok ()) =>
    match b.get? id with
    | some _ => ({ b with records := b.records.filter fun p => !(p.1 == id) }, .ok true)
    | none => (b, .ok false)

/-- Whether a record is stored. -/
def exists? (b : Backend) (id : Identity) : Backend × Outcome Bool :=
  match b.check with
  | (b, .error f) => (b, .error f)
  | (b, .ok ()) => (b, .ok (b.get? id).isSome)

/-- Identities a query selects, in identity order, at most the query's limit. -/
def findIds (b : Backend) (q : Query) : Backend × Outcome (List Identity) :=
  match b.check with
  | (b, .error f) => (b, .error f)
  | (b, .ok ()) =>
    match q.validate with
    | .error f => (b, .error f)
    | .ok () =>
      let ids := (b.records.filter fun p => q.selects p.1 p.2).map (·.1)
      (b, .ok (match q.limit with
        | some n => ids.take n
        | none => ids))

/-- Subscribe to changes of a kind. -/
def watch (b : Backend) (kind : String) (subscriber : Nat) : Backend :=
  { b with watchers := b.watchers ++ [(kind, subscriber)] }

/-- Count a stored change, answering the subscribers to tell, in order. -/
def changed (b : Backend) (id : Identity) : Backend × List Nat :=
  ({ b with writes := b.writes + 1 }, (b.watchers.filter (·.1 == id.kind)).map (·.2))

end Backend

end Stowage
