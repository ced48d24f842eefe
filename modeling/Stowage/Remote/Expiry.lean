/-!
Freshness of remote values.

A stamp records when a cached value was last known good, or that it must or may be reloaded.
The expiry policy comes from one signed window in milliseconds: zero never expires, a negative
window reloads before answering once it has passed, a positive one answers with the cached value
and reloads in the background. A value stamped at `at` has outlived a window `w` at `now` when
`now - at ≥ w`, the difference stopping at the bounds of the signed 64-bit range.
-/
namespace Stowage.Remote

/-- When the cached value was last known good. -/
inductive Stamp where
  /-- Loaded or confirmed at this many milliseconds since the epoch. -/
  | since (ms : Int)
  /-- Must be reloaded before it is served again. -/
  | forceExpired
  /-- Treated as past its window. -/
  | weakExpired
  deriving BEq, DecidableEq, Repr, Inhabited

/-- Text of a stamp: `at 5`, `force-expired`, `weak-expired`. -/
def Stamp.render : Stamp → String
  | .since ms => "at " ++ toString ms
  | .forceExpired => "force-expired"
  | .weakExpired => "weak-expired"

/-- What a proxy does with a value past its window. -/
inductive ExpiryPolicy where
  /-- Reload before answering once the window has passed. -/
  | blocking (window : Nat)
  /-- The value never goes stale on its own. -/
  | never
  /-- Answer with the cached value and reload in the background. -/
  | background (window : Nat)
  deriving BEq, DecidableEq, Repr, Inhabited

/-- What a read has to do before answering. -/
inductive Freshness where
  | fresh
  | reload
  | refresh
  deriving BEq, DecidableEq, Repr, Inhabited

/-- Lowercase name of a freshness. -/
def Freshness.render : Freshness → String
  | .fresh => "fresh"
  | .reload => "reload"
  | .refresh => "refresh"

/-- The greatest signed 64-bit value. -/
def i64Max : Int := Int.pow 2 63 - 1

/-- The least signed 64-bit value. -/
def i64Min : Int := -Int.pow 2 63

/-- Clamp to the signed 64-bit range. -/
def saturate (x : Int) : Int := max i64Min (min x i64Max)

namespace ExpiryPolicy

/-- The policy of a signed window. -/
def ofMillis (ms : Int) : ExpiryPolicy :=
  if ms = 0 then .never else if ms < 0 then .blocking ms.natAbs else .background ms.natAbs

/-- Decide from the stamp and the current time. -/
def freshness (p : ExpiryPolicy) (stamp : Stamp) (now : Int) : Freshness :=
  let elapsed : Option Bool :=
    match stamp with
    | .forceExpired => none
    | .weakExpired => some true
    | .since stampMs =>
      match p with
      | .never => some false
      | .blocking w | .background w => some (decide (saturate (now - stampMs) ≥ min (w : Int) i64Max))
  match elapsed with
  | none => .reload
  | some false => .fresh
  | some true =>
    match p with
    | .blocking _ => .reload
    | _ => .refresh

end ExpiryPolicy

end Stowage.Remote
