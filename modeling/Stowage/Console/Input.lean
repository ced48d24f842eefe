import Stowage.Json.Value
/-!
Reading the fields of a console command.

A command is a JSON object. A required field that is absent is reported as
`missing field <name>`; a field of the wrong kind as `field <name> must be …` with the kind
(`a string`, `an i64`, `a u64`, `a boolean`, `an array`, `an object`). An optional field that is
absent takes its default. Only an optional string may also be `null`; one of another kind is
reported as `field <name> must be a string or null`, while an optional number or flag given as
`null` is of the wrong kind. Some fields are read loosely: a value of the wrong kind counts as
absent.
-/
namespace Stowage.Console

open Stowage.Json

abbrev Decode := Except String

def present? (cmd : Value) (name : String) : Option Value :=
  match cmd.field? name with
  | some .null => none
  | v => v

def need (cmd : Value) (name : String) : Decode Value :=
  match cmd.field? name with
  | some v => .ok v
  | none => .error ("missing field " ++ name)

def asStr (name : String) (v : Value) : Decode String :=
  match v with
  | .str s => .ok s
  | _ => .error ("field " ++ name ++ " must be a string")

def asI64 (name : String) (v : Value) : Decode Int :=
  match v.asI64? with
  | some i => .ok i
  | none => .error ("field " ++ name ++ " must be an i64")

def asU64 (name : String) (v : Value) : Decode Nat :=
  match v.asU64? with
  | some n => .ok n
  | none => .error ("field " ++ name ++ " must be a u64")

def asBool (name : String) (v : Value) : Decode Bool :=
  match v with
  | .bool b => .ok b
  | _ => .error ("field " ++ name ++ " must be a boolean")

def asArr (name : String) (v : Value) : Decode (List Value) :=
  match v with
  | .arr xs => .ok xs
  | _ => .error ("field " ++ name ++ " must be an array")

def asObj (name : String) (v : Value) : Decode Value :=
  match v with
  | .obj _ => .ok v
  | _ => .error ("field " ++ name ++ " must be an object")

def str (cmd : Value) (name : String) : Decode String := need cmd name >>= asStr name

def i64 (cmd : Value) (name : String) : Decode Int := need cmd name >>= asI64 name

def u64 (cmd : Value) (name : String) : Decode Nat := need cmd name >>= asU64 name

def bool (cmd : Value) (name : String) : Decode Bool := need cmd name >>= asBool name

def arr (cmd : Value) (name : String) : Decode (List Value) := need cmd name >>= asArr name

def strOpt (cmd : Value) (name : String) : Decode (Option String) :=
  match present? cmd name with
  | some (.str s) => .ok (some s)
  | some _ => .error ("field " ++ name ++ " must be a string or null")
  | none => .ok none

def strLoose (cmd : Value) (name : String) : Option String :=
  match cmd.field? name with
  | some (.str s) => some s
  | _ => none

def u32 (cmd : Value) (name : String) : Decode Nat := do
  let n ← u64 cmd name
  if n < Nat.pow 2 32 then return n else throw name

/-- A list of strings; anything else, a missing field included, is reported by the field's
name. -/
def strList (cmd : Value) (name : String) : Decode (List String) :=
  match cmd.field? name with
  | some (.arr xs) =>
    match xs.mapM Value.asString? with
    | some ss => .ok ss
    | none => .error name
  | _ => .error name

def i64Or (cmd : Value) (name : String) (default : Int) : Decode Int :=
  match cmd.field? name with
  | some v => asI64 name v
  | none => .ok default

def u64Or (cmd : Value) (name : String) (default : Nat) : Decode Nat :=
  match cmd.field? name with
  | some v => asU64 name v
  | none => .ok default

/-- An optional count that fits in 32 bits, with a default; a larger one is reported by the
field's name. -/
def u32Or (cmd : Value) (name : String) (default : Nat) : Decode Nat := do
  let n ← u64Or cmd name default
  if n < Nat.pow 2 32 then return n else throw name

def u64Opt (cmd : Value) (name : String) : Decode (Option Nat) :=
  match present? cmd name with
  | some v => some <$> asU64 name v
  | none => .ok none

def boolOr (cmd : Value) (name : String) (default : Bool) : Decode Bool :=
  match cmd.field? name with
  | some v => asBool name v
  | none => .ok default

def badInput (message : String) : Value :=
  .obj [("error", .str "BadInput"), ("message", .str message)]

def errorAnswer (kind message : String) : Value :=
  .obj [("error", .str kind), ("message", .str message)]

def resultAnswer (v : Value) : Value := .obj [("result", v)]

end Stowage.Console
