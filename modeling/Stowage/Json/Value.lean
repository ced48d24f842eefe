/-!
JSON values as the store carries them: integers keep their exact value (anything in
`[-2^63, 2^64)`), every other number is a double, and objects are maps sorted by key.

Two values are equal when they have the same shape, the same integers, doubles that compare
equal as doubles, and the same keys with equal values. An integer never equals a double, so
`1` and `1.0` are different values.
-/
namespace Stowage.Json

/-- A JSON number: an exact integer in `[-2^63, 2^64)` or a double. -/
inductive Number where
  | int (i : Int)
  | float (f : Float)
  deriving Inhabited

/-- A JSON value; object fields are kept sorted by key, each key once. -/
inductive Value where
  | null
  | bool (b : Bool)
  | num (n : Number)
  | str (s : String)
  | arr (items : List Value)
  | obj (fields : List (String × Value))
  deriving Inhabited

namespace Number

/-- The least integer that stays an integer. -/
def intMin : Int := -Int.pow 2 63

/-- One past the greatest integer that stays an integer. -/
def intBound : Int := Int.pow 2 64

/-- Whether an integer is kept exactly rather than turned into a double. -/
def fitsInt (i : Int) : Bool := decide (intMin ≤ i) && decide (i < intBound)

/-- Numbers are equal when both are integers of one value or both are doubles that compare
equal (so `0.0` equals `-0.0`). -/
def beq : Number → Number → Bool
  | .int a, .int b => a == b
  | .float a, .float b => a == b
  | _, _ => false

instance : BEq Number := ⟨beq⟩

end Number

namespace Value

/-- An integer value; the caller keeps it within `[-2^63, 2^64)`. -/
def ofInt (i : Int) : Value := .num (.int i)

/-- A natural number value. -/
def ofNat (n : Nat) : Value := .num (.int n)

/-- A double value. -/
def ofFloat (f : Float) : Value := .num (.float f)

/-- An optional string: `null` when absent. -/
def ofOption (s : Option String) : Value :=
  match s with
  | some t => .str t
  | none => .null

/-- Put `v` under `k` in a sorted field list, replacing an equal key in place. -/
def insertField (k : String) (v : Value) : List (String × Value) → List (String × Value)
  | [] => [(k, v)]
  | (k', v') :: rest =>
    if k = k' then (k, v) :: rest
    else if k < k' then (k, v) :: (k', v') :: rest
    else (k', v') :: insertField k v rest

/-- An object from fields in any order; of two equal keys the later one wins. -/
def ofFields (fields : List (String × Value)) : Value :=
  .obj (fields.foldl (fun acc kv => insertField kv.1 kv.2 acc) [])

/-- The value under a key of an object. -/
def field? (v : Value) (k : String) : Option Value :=
  match v with
  | .obj fields => fields.lookup k
  | _ => none

/-- Structural equality with double comparison for doubles. -/
def beq : Value → Value → Bool
  | .null, .null => true
  | .bool a, .bool b => a == b
  | .num a, .num b => a.beq b
  | .str a, .str b => a == b
  | .arr as, .arr bs => beqList as bs
  | .obj as, .obj bs => beqFields as bs
  | _, _ => false
where
  beqList : List Value → List Value → Bool
    | [], [] => true
    | a :: as, b :: bs => beq a b && beqList as bs
    | _, _ => false
  beqFields : List (String × Value) → List (String × Value) → Bool
    | [], [] => true
    | (k, a) :: as, (k', b) :: bs => k == k' && beq a b && beqFields as bs
    | _, _ => false

instance : BEq Value := ⟨beq⟩

/-- Whether the value is an object. -/
def isObject : Value → Bool
  | .obj _ => true
  | _ => false

/-- The integer of an integer value in the signed 64-bit range. -/
def asI64? : Value → Option Int
  | .num (.int i) => if i < Int.pow 2 63 then some i else none
  | _ => none

/-- The integer of a non-negative integer value. -/
def asU64? : Value → Option Nat
  | .num (.int i) => if 0 ≤ i then some i.toNat else none
  | _ => none

/-- The text of a string value. -/
def asString? : Value → Option String
  | .str s => some s
  | _ => none

/-- The flag of a boolean value. -/
def asBool? : Value → Option Bool
  | .bool b => some b
  | _ => none

/-- The items of an array value. -/
def asArray? : Value → Option (List Value)
  | .arr xs => some xs
  | _ => none

end Value

end Stowage.Json
