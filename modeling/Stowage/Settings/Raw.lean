import Stowage.Settings.Basic
import Stowage.Decimal.Shortest
import Stowage.Text.Quoted
/-!
Raw settings: the loosely typed tree that configuration files and environment variables are
read into before it is read as `Settings`.

Every value remembers where it came from: the path of a file, the environment, or nothing for
tables made while layering. Layering sets a value at a key path (`cache.capacity`,
`items[2]`): a table laid over a table merges into it key by key, and anything else replaces
what was there; missing tables are made on the way, and a value in the way of a table or a
list is replaced by an empty one.

List positions are machine words. A negative index counts from the end and wraps around when
it reaches past the start, so `[-1]` on an empty list stands for the last word; a list is grown
to one past the position, a length that wraps to zero empties it, and layering then stops with
a crash, as it does when the list would be too long to allocate.
-/
namespace Stowage.Settings

/-- How reading a settings file fails: the file is refused, with the reason, or the reader
crashes, with the crash's message. -/
inductive ReadFailure where
  /-- The file does not read, for this reason. -/
  | refused (reason : String)
  /-- The reader stopped the program with this message. -/
  | crashed (message : String)

/-- Where a raw value came from; `none` for tables made while layering. -/
abbrev Origin := Option String

/-- A loosely typed setting value. -/
inductive Raw where
  | nil (origin : Origin)
  | bool (origin : Origin) (b : Bool)
  | int (origin : Origin) (i : Int)
  | float (origin : Origin) (f : Float)
  | str (origin : Origin) (s : String)
  | list (origin : Origin) (items : List Raw)
  | table (origin : Origin) (entries : List (String × Raw))
  deriving Inhabited

namespace Raw

/-- Where the value came from. -/
def origin : Raw → Origin
  | .nil o | .bool o _ | .int o _ | .float o _ | .str o _ | .list o _ | .table o _ => o

/-- An empty table made while layering. -/
def emptyTable : Raw := .table none []

/-- The entries of a table; other values have none. -/
def entries? : Raw → Option (List (String × Raw))
  | .table _ es => some es
  | _ => none

/-- Set an entry, in place when the key is there, else at the end. -/
def putEntry (es : List (String × Raw)) (k : String) (v : Raw) : List (String × Raw) :=
  if es.any (·.1 == k) then es.map fun e => if e.1 == k then (k, v) else e else es ++ [(k, v)]

theorem sizeOf_lt_table {o : Origin} {es : List (String × Raw)} {k : String} {v : Raw}
    (h : (k, v) ∈ es) : sizeOf v < 1 + sizeOf o + sizeOf es := by
  have hes := List.sizeOf_lt_of_mem h
  simp only [Prod.mk.sizeOf_spec] at hes
  omega

/-- Lay `value` over the entry `key` of `root`, which becomes a table if it is not one. A table
merges into the entry key by key; anything else replaces it. -/
def setKey (root : Raw) (key : String) (value : Raw) : Raw :=
  let es := (root.entries?).getD []
  let o := if root.entries?.isSome then root.origin else none
  match value with
  | .table vo incoming =>
    let target := (es.lookup key).getD emptyTable
    let merged := incoming.attach.foldl (fun (t : Raw) (e : {x // x ∈ incoming}) =>
      have : sizeOf e.1.2 < 1 + sizeOf vo + sizeOf incoming :=
        sizeOf_lt_table (k := e.1.1) e.2
      setKey t e.1.1 e.1.2) target
    .table o (putEntry es key merged)
  | _ => .table o (putEntry es key value)
termination_by sizeOf value

/-- A character in lower case, as far as it can matter to a settings key: the letters `A` to
`Z`, the Kelvin sign, which becomes `k`, and the capital `I` with a dot above, which becomes `i`
and a combining dot above. These are the only characters whose lower case holds an ASCII letter,
so every other character is kept; no key of the settings can tell the difference. -/
def lowerChar (c : Char) : List Char :=
  if c.isUpper then [c.toLower]
  else if c = '\u212A' then ['k']
  else if c = '\u0130' then ['i', '\u0307']
  else [c]

/-- A key in lower case, as settings keys are compared. -/
def lowerKey (k : String) : String := String.ofList (k.toList.flatMap lowerChar)

/-- Entries with their keys in lower case; of keys that become one, the later wins. With
`sorted`, entries are taken in the order of their keys as given, else in the order they come. -/
def gatherLowered (sorted : Bool) (es : List (String × Raw)) : List (String × Raw) :=
  let ordered := if sorted then es.mergeSort fun a b => decide (a.1 ≤ b.1) else es
  ordered.foldl (fun acc e => putEntry acc (lowerKey e.1) e.2) []

mutual

/-- The value with the keys of every table in lower case, as `gatherLowered` takes them. -/
def lowerKeys (sorted : Bool) : Raw → Raw
  | .list o items => .list o (lowerKeysItems sorted items)
  | .table o es => .table o (gatherLowered sorted (lowerKeysEntries sorted es))
  | v => v

/-- List items with the keys of their tables in lower case. -/
def lowerKeysItems (sorted : Bool) : List Raw → List Raw
  | [] => []
  | v :: rest => lowerKeys sorted v :: lowerKeysItems sorted rest

/-- Entries whose values have the keys of their tables in lower case. -/
def lowerKeysEntries (sorted : Bool) : List (String × Raw) → List (String × Raw)
  | [] => []
  | (k, v) :: rest => (k, lowerKeys sorted v) :: lowerKeysEntries sorted rest

end

/-- One step of a key path after its first name. -/
inductive PathStep where
  | child (key : String)
  | index (i : Int)
  deriving BEq, Repr, Inhabited

/-- A key path: a first name and the steps after it. -/
structure KeyPath where
  head : String
  steps : List PathStep
  deriving Repr, Inhabited

/-- Characters of a name in a key path. -/
def isNameChar (c : Char) : Bool := c.isAlphanum || c == '_' || c == '-' || c == ' '

/-- Whether an index fits a signed machine word. -/
def fitsWord (i : Int) : Bool := decide (-Int.pow 2 63 ≤ i) && decide (i < Int.pow 2 63)

/-- Read the steps of a key path, with fuel for the characters left. -/
def pathSteps : Nat → List Char → Option (List PathStep)
  | _, [] => some []
  | 0, _ => none
  | fuel + 1, '.' :: rest =>
    let name := rest.takeWhile isNameChar
    if name.isEmpty then none
    else (PathStep.child (String.ofList name) :: ·) <$> pathSteps fuel (rest.drop name.length)
  | fuel + 1, '[' :: rest =>
    let rest := rest.dropWhile (· == ' ')
    let (negative, rest) := match rest with
      | '-' :: more => (true, more)
      | _ => (false, rest)
    let digits := rest.takeWhile Char.isDigit
    let rest := (rest.drop digits.length).dropWhile (· == ' ')
    match digits.isEmpty, rest with
    | false, ']' :: more =>
      let n : Int := (String.ofList digits).toNat!
      let i := if negative then -n else n
      if fitsWord i then (PathStep.index i :: ·) <$> pathSteps fuel more else none
    | _, _ => none
  | _, _ => none

/-- Read a key path: names of letters, digits, `_`, `-` and blanks, joined by `.`, each name
perhaps followed by `[index]`s that fit a signed machine word. -/
def KeyPath.parse (key : String) : Option KeyPath :=
  let cs := key.toList
  let head := cs.takeWhile isNameChar
  if head.isEmpty then none
  else (KeyPath.mk (String.ofList head)) <$> pathSteps cs.length (cs.drop head.length)

/-- The position a signed index stands for in a list of length `len`, as a machine word:
negative ones count from the end, wrapping around past the start. -/
def listPosition (i : Int) (len : Nat) : Nat :=
  if 0 ≤ i then i.toNat else (((len : Int) + i) % Int.pow 2 64).toNat

/-- The size of one list element in memory, which bounds how long a list can be. -/
def elementBytes : Nat := 96

/-- The longest list layering builds; a longer one cannot be allocated. -/
def maxListLength : Nat := Nat.pow 2 24

/-- The items of a list made long enough to hold position `u`, or the crash that stops
layering: a length of `u + 1` that wraps to zero empties the list, so the position is out of
bounds, and a length past what memory holds cannot be allocated. -/
def growTo (items : List Raw) (u : Nat) : Except String (List Raw) :=
  if u < items.length then .ok items
  else
    let len := (u + 1) % Nat.pow 2 64
    if len = 0 then
      .error ("index out of bounds: the len is 0 but the index is " ++ toString u)
    else if len * elementBytes ≥ Nat.pow 2 63 then .error "capacity overflow"
    else if len > maxListLength then
      .error ("memory allocation of " ++ toString (len * elementBytes) ++ " bytes failed")
    else .ok (items ++ List.replicate (len - items.length) (.nil none))

/-- Change the value at the end of some steps below `v` by `g`, making tables and lists on
the way; a crash is its message. -/
def modifySteps (g : Raw → Except String Raw) : List PathStep → Raw → Except String Raw
  | [], v => g v
  | .child k :: rest, v => do
    let es := (v.entries?).getD []
    let here := (es.lookup k).getD (.nil none)
    return .table (if v.entries?.isSome then v.origin else none)
      (putEntry es k (← modifySteps g rest here))
  | .index i :: rest, v => do
    let (o, items) := match v with
      | .list o items => (o, items)
      | _ => (none, [])
    let u := listPosition i items.length
    let items ← growTo items u
    let inner ← modifySteps g rest (items.getD u (.nil none))
    return .list o (items.set u inner)

/-- Lay a value over `root` at a key path; a crash is its message. -/
def setPath (root : Raw) (p : KeyPath) (value : Raw) : Except String Raw :=
  match p.steps.getLast? with
  | none => .ok (root.setKey p.head value)
  | some last =>
    let place := fun (v : Raw) =>
      match last with
      | .child k => .ok (v.setKey k value)
      | .index _ => modifySteps (fun _ => .ok value) [last] v
    match root with
    | .table o es =>
      let here := (es.lookup p.head).getD (.nil none)
      (fun r => .table o (putEntry es p.head r)) <$> modifySteps place p.steps.dropLast here
    | _ => .ok root

/-- Lay a value over `root` at a key given as text: a key path when it reads as one, else a
plain key; a crash is its message. -/
def set (root : Raw) (key : String) (value : Raw) : Except String Raw :=
  match KeyPath.parse key with
  | some p => root.setPath p value
  | none => .ok (root.setKey key value)

end Raw

end Stowage.Settings
