import Stowage.Record
/-!
Identity searches within one kind.

A query names a kind, a filter and an optional limit. A record matches when its identity is of
the query's kind and the filter holds: every key; a listed key; a key with a prefix; a key in
`[from, to)` (a missing bound is open); a stamped modification time in `[after, before)`, which
a record without a readable time never matches; or a user field equal to a value. Filtering on
a reserved attribute is refused by `validate`.
-/
namespace Stowage

open Stowage.Json

/-- What a query selects within its kind. -/
inductive Filter where
  | all
  | ids (keys : List String)
  | pre (pfx : String)
  | range (lo hi : Option String)
  | modified (after before : Option Instant)
  | fieldEq (name : String) (value : Value)
  deriving Inhabited

/-- The filter's name. -/
def Filter.name : Filter → String
  | .all => "all"
  | .ids _ => "ids"
  | .pre _ => "prefix"
  | .range .. => "range"
  | .modified .. => "modified"
  | .fieldEq .. => "field_eq"

/-- An identity search. -/
structure Query where
  kind : String
  filter : Filter
  limit : Option Nat := none
  deriving Inhabited

namespace Query

/-- Refuse filters on reserved attributes. -/
def validate (q : Query) : Outcome Unit :=
  match q.filter with
  | .fieldEq name _ =>
    if Record.isReserved name then
      .error (.invalidArgument ("cannot filter on reserved attribute " ++ Text.quoteString name))
    else .ok ()
  | _ => .ok ()

/-- A field-equality query, validated. -/
def fieldEq (kind name : String) (value : Value) : Outcome Query := do
  let q : Query := { kind, filter := .fieldEq name value }
  q.validate
  return q

/-- Whether a stored record satisfies the query. -/
def selects (q : Query) (id : Identity) (r : Record) : Bool :=
  id.kind == q.kind &&
    match q.filter with
    | .all => true
    | .ids keys => keys.contains id.key
    | .pre p => id.key.startsWith p
    | .range lo hi =>
      (lo.all fun l => decide (l ≤ id.key)) && (hi.all fun h => decide (id.key < h))
    | .modified after before =>
      match r.modified? with
      | some t => (after.all fun a => a.le t) && (before.all fun b => t.lt b)
      | none => false
    | .fieldEq name value => (r.get? name).any (· == value)

end Query

end Stowage
