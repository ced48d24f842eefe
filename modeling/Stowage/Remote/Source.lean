import Stowage.Fault
import Stowage.Version.Lineage
/-!
Sources of remote values, and the offline copies kept of them.

A source holds, for each identity, a value with the lineage it was written at and an optional
owner. Reading counts as a load. Failures can be injected: the next reads and writes fail as if
the source were unreachable, one each. A write names the lineage it is based on and the one it
proposes; it is stored only when the stored lineage is the one it is based on, and the owner
stays what it was.

Offline copies are the last values seen, kept to answer when the source cannot be reached. A
proxy may have none, a working set of copies, or a set whose every call fails.
-/
namespace Stowage.Remote

open Stowage.Version

/-- A value as a source serves it. -/
structure RemoteValue (α : Type) where
  value : α
  version : Lineage
  owner : Option String
  deriving Inhabited

/-- Where remote values really live. -/
structure Source (α : Type) where
  values : List (Identity × RemoteValue α)
  /-- Calls left to fail. -/
  failures : Nat
  /-- Reads so far, failed ones included. -/
  loads : Nat

namespace Source

variable {α : Type}

/-- An empty source. -/
def empty : Source α := ⟨[], 0, 0⟩

/-- The value held for an identity. -/
def current (s : Source α) (id : Identity) : Option (RemoteValue α) := s.values.lookup id

/-- Set a value as another writer would. -/
def put (s : Source α) (id : Identity) (v : RemoteValue α) : Source α :=
  { s with values := (id, v) :: s.values.filter fun p => !(p.1 == id) }

/-- Remove a value, answering what was held. -/
def remove (s : Source α) (id : Identity) : Source α × Option (RemoteValue α) :=
  ({ s with values := s.values.filter fun p => !(p.1 == id) }, s.current id)

/-- Make the next `n` calls fail. -/
def failNext (s : Source α) (n : Nat) : Source α := { s with failures := n }

/-- Pass the failure check of a call: an injected failure is used up and reported. -/
def check (s : Source α) : Source α × Outcome Unit :=
  match s.failures with
  | 0 => (s, .ok ())
  | n + 1 => ({ s with failures := n }, .error (.backend "remote unreachable"))

/-- Read a value; `none` when the source has no such object. -/
def load (s : Source α) (id : Identity) : Source α × Outcome (Option (RemoteValue α)) :=
  let s := { s with loads := s.loads + 1 }
  match s.check with
  | (s, .error f) => (s, .error f)
  | (s, .ok ()) => (s, .ok (s.current id))

/-- Write a value based on `previous`, proposing `next`; answers the lineage stored. -/
def store (s : Source α) (id : Identity) (value : α) (previous next : Lineage) :
    Source α × Outcome Lineage :=
  match s.check with
  | (s, .error f) => (s, .error f)
  | (s, .ok ()) =>
    let held := s.current id
    let current := (held.map (·.version)).getD Lineage.empty
    if current.compare previous != .same then
      (s, .error (.versionConflict id.render previous.render current.render))
    else (s.put id ⟨value, next, held.bind (·.owner)⟩, .ok next)

end Source

/-- Offline copies of remote values. -/
structure Copies (α : Type) where
  entries : List (Identity × RemoteValue α)

namespace Copies

variable {α : Type}

/-- No copies. -/
def empty : Copies α := ⟨[]⟩

/-- The copy of an identity. -/
def get? (c : Copies α) (id : Identity) : Option (RemoteValue α) := c.entries.lookup id

/-- Keep a copy, answering the lineage of the copy it replaced. -/
def update (c : Copies α) (id : Identity) (v : RemoteValue α) : Copies α × Option Lineage :=
  (⟨(id, v) :: c.entries.filter fun p => !(p.1 == id)⟩, (c.get? id).map (·.version))

/-- Number of copies. -/
def size (c : Copies α) : Nat := c.entries.length

end Copies

/-- The offline copies a proxy falls back on. -/
inductive Fallback where
  /-- There are none. -/
  | none
  /-- The copies kept beside the source. -/
  | copies
  /-- Every call fails. -/
  | broken
  deriving DecidableEq, Repr, Inhabited

end Stowage.Remote
