import Stowage.Random.ChaCha
/-!
Drawing numbers from a generator of random words.

A whole number below `range` is read off a word `v` of 32 or 64 bits as the high half of
`v · range`; the draw is rejected and repeated when the low half lies above a zone, the range
shifted up to the top bit, less one, which makes every outcome equally likely. Ranges whose
values fit 32 bits draw 32-bit words; 64-bit ranges (sizes, 64-bit integers) draw 64-bit words.

A coin with probability `p` draws a 64-bit word and comes up when the word is below
`p · 2^64`. A float in `[low, high)` takes the top 52 bits of a 64-bit word as the fraction of
a number in `[1, 2)`, moves it to `[0, 1)` and scales it.

A rejection happens with probability below one half, so each draw is given a fixed budget of
attempts; running out of it has probability below `2^-128`.
-/
namespace Stowage.Random

namespace ChaCha

/-- Attempts a draw may take before the last one is kept. -/
def attempts : Nat := 128

/-- A word of 64 bits (`wide`) or 32 bits, as a number. -/
def word (wide : Bool) (g : ChaCha) : Nat × ChaCha :=
  if wide then
    let (v, g) := g.nextU64
    (v.toNat, g)
  else
    let (v, g) := g.nextU32
    (v.toNat, g)

/-- Draw a number below `range`, retrying at most `fuel` more times. -/
def belowWithin (wide : Bool) (range : Nat) : Nat → ChaCha → Nat × ChaCha
  | fuel, g =>
    let bits := if wide then 64 else 32
    let zone := (range <<< (bits - (Nat.log2 range + 1))) - 1
    let (v, g) := word wide g
    let product := v * range
    let hi := product >>> bits
    let lo := product % Nat.pow 2 bits
    match fuel with
    | 0 => (hi, g)
    | fuel + 1 => if lo ≤ zone then (hi, g) else belowWithin wide range fuel g

/-- A number drawn evenly below `range` (at least one). -/
def below (wide : Bool) (range : Nat) (g : ChaCha) : Nat × ChaCha :=
  belowWithin wide range attempts g

/-- An integer drawn evenly from `low ≤ x < high`. -/
def intBetween (wide : Bool) (low high : Int) (g : ChaCha) : Int × ChaCha :=
  let (n, g) := below wide (high - low).toNat g
  (low + n, g)

/-- An integer drawn evenly from `low ≤ x ≤ high`. -/
def intThrough (wide : Bool) (low high : Int) (g : ChaCha) : Int × ChaCha :=
  intBetween wide low (high + 1) g

/-- A position drawn evenly below `size` (positive). -/
def position (size : Nat) (g : ChaCha) : Nat × ChaCha := below true size g

/-- A coin that comes up with probability `p`, for `0 ≤ p < 1`. -/
def chance (p : Float) (g : ChaCha) : Bool × ChaCha :=
  let threshold := (p * 18446744073709551616.0).toUInt64
  let (v, g) := g.nextU64
  (v < threshold, g)

/-- A float drawn evenly from `[low, high)`, retrying at most `fuel` more times. -/
def floatWithin (low high : Float) : Nat → ChaCha → Float × ChaCha
  | fuel, g =>
    let (v, g) := g.nextU64
    let unit := Float.ofBits ((v >>> 12) ||| ((1023 : UInt64) <<< 52)) - 1.0
    let res := unit * (high - low) + low
    match fuel with
    | 0 => (res, g)
    | fuel + 1 => if res < high then (res, g) else floatWithin low high fuel g

/-- A float drawn evenly from `[low, high)`. -/
def float (low high : Float) (g : ChaCha) : Float × ChaCha := floatWithin low high attempts g

end ChaCha

end Stowage.Random
