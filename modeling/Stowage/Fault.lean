import Stowage.Identity
/-!
Failures of the store.

Absent records are never failures: lookups answer "nothing" and deletes answer `false`. A
failure is one of the causes below. Three kinds are worth retrying later (backend failures,
exhausted resources, timeouts); three are mistakes of the caller that no retry mends (broken
invariants, invalid arguments, bad configuration); a version conflict means an optimistic write
lost to another writer.
-/
namespace Stowage

/-- A failure of the store. -/
inductive Fault where
  | backend (detail : String)
  | versionConflict (id expected actual : String)
  | idDuplicate (attempts : Nat)
  | invariant (detail : String)
  | invalidArgument (detail : String)
  | resourceExhausted (detail : String)
  | timeout
  | closed
  | notSupported (detail : String)
  | configuration (detail : String)
  | serialization (detail : String)
  | internal (detail : String)
  deriving BEq, Repr, Inhabited

namespace Fault

/-- The name of the failure's kind. -/
def kindName : Fault → String
  | .backend _ => "Backend"
  | .versionConflict .. => "VersionConflict"
  | .idDuplicate _ => "IdDuplicate"
  | .invariant _ => "Invariant"
  | .invalidArgument _ => "InvalidArgument"
  | .resourceExhausted _ => "ResourceExhausted"
  | .timeout => "Timeout"
  | .closed => "Closed"
  | .notSupported _ => "NotSupported"
  | .configuration _ => "Configuration"
  | .serialization _ => "Serialization"
  | .internal _ => "Internal"

/-- The message of a failure. -/
def message : Fault → String
  | .backend s => "backend error: " ++ s
  | .versionConflict id expected actual =>
    "version conflict on " ++ id ++ ": expected " ++ Text.quoteString expected ++ ", found " ++
      Text.quoteString actual
  | .idDuplicate n => "could not generate a unique id after " ++ toString n ++ " attempts"
  | .invariant s => "invariant violated: " ++ s
  | .invalidArgument s => "invalid argument: " ++ s
  | .resourceExhausted s => "resource exhausted: " ++ s
  | .timeout => "request timeout"
  | .closed => "component is closed"
  | .notSupported s => "not supported: " ++ s
  | .configuration s => "configuration error: " ++ s
  | .serialization s => "serialization error: " ++ s
  | .internal s => "internal error: " ++ s

/-- Retrying the same operation later may succeed. -/
def isRetryable : Fault → Bool
  | .backend _ | .resourceExhausted _ | .timeout => true
  | _ => false

/-- A mistake of the caller that must never be retried. -/
def isFatal : Fault → Bool
  | .invariant _ | .invalidArgument _ | .configuration _ => true
  | _ => false

/-- An optimistic write that lost to another writer. -/
def isConflict : Fault → Bool
  | .versionConflict .. => true
  | _ => false

/-- An identity error inside the store is an invalid argument with the same words. -/
def ofIdentity (e : IdentityError) : Fault := .invalidArgument e.message

end Fault

/-- A result of the store. -/
abbrev Outcome := Except Fault

end Stowage
