/-!
Instants in UTC and their RFC 3339 text.

An instant is a second since the Unix epoch and a fraction in nanoseconds; a fraction of a
second or more stands for a leap second, shown as second 60. Instants are ordered by second,
then fraction.

Reading accepts `YYYY-MM-DD`, then `T`, `t` or a space, then `hh:mm:ss`, an optional fraction of
any number of digits (the first nine count), and `Z`, `z` or an offset `±hh:mm` below 24 hours,
whose minus may also be written as the minus sign U+2212. The date must exist in the proleptic
Gregorian calendar, hours run to 23, minutes to 59 and seconds to 60. Writing gives
`YYYY-MM-DDThh:mm:ss.mmmZ` with the fraction cut to milliseconds; years outside 0 to 9999 carry
their sign and at least four digits, and such text does not read back, because reading wants
exactly four digits.
-/
namespace Stowage

/-- A UTC instant: seconds since the epoch and a fraction in nanoseconds. -/
structure Instant where
  seconds : Int
  nanos : Nat
  deriving BEq, DecidableEq, Repr, Inhabited

namespace Instant

/-- Lexicographic order on second, then fraction. -/
def cmp (a b : Instant) : Ordering := (compare a.seconds b.seconds).then (compare a.nanos b.nanos)

/-- Whether `a` is not after `b`. -/
def le (a b : Instant) : Bool := cmp a b != .gt

/-- Whether `a` is before `b`. -/
def lt (a b : Instant) : Bool := cmp a b == .lt

/-- Days since 1970-01-01 of a proleptic Gregorian date. -/
def daysFromCivil (y m d : Int) : Int :=
  let y := if m ≤ 2 then y - 1 else y
  let era := y / 400
  let yoe := y - era * 400
  let mp := (m + 9) % 12
  let doy := (153 * mp + 2) / 5 + d - 1
  let doe := yoe * 365 + yoe / 4 - yoe / 100 + doy
  era * 146097 + doe - 719468

/-- The proleptic Gregorian date of a day count since 1970-01-01. -/
def civilFromDays (z : Int) : Int × Int × Int :=
  let z := z + 719468
  let era := z / 146097
  let doe := z - era * 146097
  let yoe := (doe - doe / 1460 + doe / 36524 - doe / 146096) / 365
  let y := yoe + era * 400
  let doy := doe - (365 * yoe + yoe / 4 - yoe / 100)
  let mp := (5 * doy + 2) / 153
  let d := doy - (153 * mp + 2) / 5 + 1
  let m := if mp < 10 then mp + 3 else mp - 9
  (if m ≤ 2 then y + 1 else y, m, d)

/-- Whether a year is a leap year. -/
def isLeap (y : Int) : Bool := (y % 4 == 0 && y % 100 != 0) || y % 400 == 0

/-- Days in a month of a year. -/
def monthLength (y m : Int) : Int :=
  if m = 2 then (if isLeap y then 29 else 28)
  else if m = 4 ∨ m = 6 ∨ m = 9 ∨ m = 11 then 30 else 31

/-- The earliest day that can be represented: the first of January of year -262143. -/
def firstDay : Int := daysFromCivil (-262143) 1 1

/-- The latest day that can be represented: the last of December of year 262142. -/
def lastDay : Int := daysFromCivil 262142 12 31

/-- The instant `ms` milliseconds after the epoch, if its year can be represented. -/
def ofMillis? (ms : Int) : Option Instant :=
  let seconds := ms / 1000
  let day := seconds / 86400
  if firstDay ≤ day ∧ day ≤ lastDay then some ⟨seconds, (ms % 1000).toNat * 1000000⟩ else none

/-- Milliseconds since the epoch. -/
def toMillis (t : Instant) : Int := t.seconds * 1000 + (t.nanos / 1000000 : Nat)

/-- Exactly `n` leading ASCII digits as a number, and the rest. -/
def digits (n : Nat) (cs : List Char) : Option (Nat × List Char) :=
  let ds := cs.take n
  if ds.length = n ∧ ds.all Char.isDigit then
    some (ds.foldl (fun acc c => acc * 10 + (c.toNat - '0'.toNat)) 0, cs.drop n)
  else none

/-- Expect one character. -/
def expect (c : Char) : List Char → Option (List Char)
  | d :: rest => if d = c then some rest else none
  | [] => none

/-- The date `YYYY-MM-DD` as year, month and day, and the rest. -/
def readDate (cs : List Char) : Option ((Nat × Nat × Nat) × List Char) := do
  let (year, cs) ← digits 4 cs
  let cs ← expect '-' cs
  let (month, cs) ← digits 2 cs
  let cs ← expect '-' cs
  let (day, cs) ← digits 2 cs
  some ((year, month, day), cs)

/-- The separator between date and time: `T`, `t` or a space. -/
def timeSeparator : List Char → Option (List Char)
  | c :: rest => if c = 'T' ∨ c = 't' ∨ c = ' ' then some rest else none
  | [] => none

/-- The time of day `hh:mm:ss` as hour, minute and second, and the rest. -/
def readTime (cs : List Char) : Option ((Nat × Nat × Nat) × List Char) := do
  let (hour, cs) ← digits 2 cs
  let cs ← expect ':' cs
  let (minute, cs) ← digits 2 cs
  let cs ← expect ':' cs
  let (second, cs) ← digits 2 cs
  some ((hour, minute, second), cs)

/-- An optional fraction of a second, in nanoseconds: a dot and at least one digit, of which
the first nine count. -/
def readFraction : List Char → Option (Nat × List Char)
  | '.' :: rest =>
    let ds := rest.takeWhile Char.isDigit
    if ds.isEmpty then none
    else
      let nine := ds.take 9
      let value := nine.foldl (fun acc c => acc * 10 + (c.toNat - '0'.toNat)) 0
      some (value * Nat.pow 10 (9 - nine.length), rest.drop ds.length)
  | cs => some (0, cs)

/-- The offset from UTC in seconds: `Z`, `z` or `±hh:mm` below 24 hours. -/
def readOffset : List Char → Option (Int × List Char)
  | 'Z' :: rest | 'z' :: rest => some (0, rest)
  | c :: rest =>
    if c = '+' ∨ c = '-' ∨ c = '\u2212' then do
      let (oh, rest) ← digits 2 rest
      let rest ← expect ':' rest
      let (om, rest) ← digits 2 rest
      if oh ≥ 24 ∨ om ≥ 60 then none
      let total : Int := oh * 3600 + om * 60
      some (if c = '+' then total else -total, rest)
    else none
  | [] => none

/-- Whether a date exists in the proleptic Gregorian calendar and a time of day is in range,
second 60 being a leap second. -/
def fieldsInRange (year month day hour minute second : Nat) : Bool :=
  decide (1 ≤ month ∧ month ≤ 12 ∧ 1 ≤ day ∧ (day : Int) ≤ monthLength year month) &&
    decide (hour ≤ 23 ∧ minute ≤ 59 ∧ second ≤ 60)

/-- Read RFC 3339 text. A leap second is read as second 59 with a fraction of a second or more. -/
def parse? (text : String) : Option Instant := do
  let ((year, month, day), cs) ← readDate text.toList
  let cs ← timeSeparator cs
  let ((hour, minute, second), cs) ← readTime cs
  let (nanos, cs) ← readFraction cs
  let (offset, cs) ← readOffset cs
  if cs.isEmpty && fieldsInRange year month day hour minute second then
    some ⟨daysFromCivil year month day * 86400 + hour * 3600 + minute * 60 +
        (if second = 60 then 59 else second) - offset,
      if second = 60 then nanos + 1000000000 else nanos⟩
  else none

/-- `n` as at least `width` digits with leading zeros. -/
def padded (width : Nat) (n : Nat) : String :=
  let s := toString n
  String.ofList (List.replicate (width - s.length) '0') ++ s

/-- The year as written: four digits within 0 to 9999, otherwise signed with at least four. -/
def yearText (y : Int) : String :=
  if 0 ≤ y ∧ y ≤ 9999 then padded 4 y.toNat
  else (if y < 0 then "-" else "+") ++ padded 4 y.natAbs

/-- RFC 3339 text with milliseconds and `Z`. -/
def render (t : Instant) : String :=
  let day := t.seconds / 86400
  let secOfDay := (t.seconds % 86400).toNat
  let (y, m, d) := civilFromDays day
  let (sec, nanos) :=
    if t.nanos ≥ 1000000000 then (secOfDay % 60 + 1, t.nanos - 1000000000)
    else (secOfDay % 60, t.nanos)
  yearText y ++ "-" ++ padded 2 m.toNat ++ "-" ++ padded 2 d.toNat ++ "T" ++
    padded 2 (secOfDay / 3600) ++ ":" ++ padded 2 (secOfDay / 60 % 60) ++ ":" ++ padded 2 sec ++
    "." ++ padded 3 (nanos / 1000000) ++ "Z"

end Instant

end Stowage
