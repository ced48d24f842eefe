/-!
Shortest decimal text of a double.

A finite double is `m · 2^e`. The reals that round to it form an interval around it whose ends
lie halfway to its two neighbours; the ends belong to it when `m` is even, because a tie rounds
to the even significand. The shortest text is the decimal with the fewest digits inside that
interval, and of two such decimals the nearer one. The search tries 1, 2, … 17 digits; on each
grid only the two grid points next to the value can be the nearest hit, so it tests those two in
exact natural-number arithmetic. Seventeen digits always hit.

`Style.plain` fixes how the digits are laid out: positional while the decimal point stays within
sixteen places to the right of the first digit or five zeros to its left, a `.0` kept on whole
numbers, and otherwise one digit, a point, the rest and an exponent with its sign.
`positional` writes the same digits out in full, with no exponent and no `.0`.
-/
namespace Stowage.Decimal

/-- A finite nonzero double as `mantissa · 2^exponent`. `narrowBelow` holds when the gap to the
next smaller double is half the gap to the next larger one. -/
structure Binary where
  mantissa : Nat
  exponent : Int
  narrowBelow : Bool

/-- Split the bits of a finite nonzero double (sign dropped). -/
def Binary.ofBits (bits : UInt64) : Binary :=
  let frac := (bits &&& 0xFFFFFFFFFFFFF).toNat
  let biased := ((bits >>> 52) &&& 0x7FF).toNat
  if biased = 0 then
    { mantissa := frac, exponent := -1074, narrowBelow := false }
  else
    { mantissa := frac + Nat.pow 2 52, exponent := (biased : Int) - 1075,
      narrowBelow := frac = 0 && biased > 1 }

/-- A decimal `digits · 10^exponent`. -/
structure Scientific where
  digits : Nat
  exponent : Int
  deriving BEq, Repr

/-- Remove trailing zero digits, raising the exponent to match. -/
def Scientific.trim (d : Scientific) : Scientific :=
  go d.digits d.exponent d.digits
where
  go (digits : Nat) (exponent : Int) : Nat → Scientific
    | 0 => ⟨digits, exponent⟩
    | fuel + 1 =>
      if digits ≠ 0 ∧ digits % 10 = 0 then go (digits / 10) (exponent + 1) fuel
      else ⟨digits, exponent⟩

/-- A non-negative rational `num / den` compared with `c · 10^k`: `compare (c · 10^k) (num/den)`. -/
def compareScaled (c : Nat) (k : Int) (num den : Nat) : Ordering :=
  if 0 ≤ k then compare (c * Nat.pow 10 k.toNat * den) num
  else compare (c * den) (num * Nat.pow 10 (-k).toNat)

/-- `floor (num / (den · 10^k))` for a rational `num / den`. -/
def floorScaled (k : Int) (num den : Nat) : Nat :=
  if 0 ≤ k then num / (den * Nat.pow 10 k.toNat) else num * Nat.pow 10 (-k).toNat / den

/-- The decimal exponent of the leading digit of `num / den` (both positive). -/
def leadingExponent (num den : Nat) : Int :=
  if den ≤ num then
    ((Nat.toDigits 10 (num / den)).length : Int) - 1
  else
    -(below 1 1100 : Int)
where
  below (j : Nat) : Nat → Nat
    | 0 => j
    | fuel + 1 => if den ≤ num * Nat.pow 10 j then j else below (j + 1) fuel

/-- The shortest decimal inside the rounding interval of `b`, the nearer of two on a tie of
length, both kinds of tie going to the even candidate. -/
def shortest (b : Binary) : Scientific :=
  -- Everything is scaled to `X / 2^s` with the value at `4m`, ends at `4m - δ` and `4m + 2`.
  let e := b.exponent - 2
  let up : Nat := if 0 ≤ e then Nat.pow 2 e.toNat else 1
  let den : Nat := if 0 ≤ e then 1 else Nat.pow 2 (-e).toNat
  let v := 4 * b.mantissa * up
  let lo := (4 * b.mantissa - (if b.narrowBelow then 1 else 2)) * up
  let hi := (4 * b.mantissa + 2) * up
  let closed := b.mantissa % 2 = 0
  let inside (c : Nat) (k : Int) : Bool :=
    let a := compareScaled c k lo den
    let z := compareScaled c k hi den
    (a == .gt || (closed && a == .eq)) && (z == .lt || (closed && z == .eq))
  let lead := leadingExponent v den
  let rec search : Nat → Nat → Scientific
    | _, 0 => ⟨floorScaled (lead - 16) v den, lead - 16⟩
    | n, fuel + 1 =>
      let k := lead + 1 - n
      let q := floorScaled k v den
      let downOk := inside q k
      let upOk := inside (q + 1) k
      if downOk && upOk then
        -- the nearer of the two; an exact tie goes to the even one
        match compare (2 * v * (if 0 ≤ k then 1 else Nat.pow 10 (-k).toNat))
            ((2 * q + 1) * den * (if 0 ≤ k then Nat.pow 10 k.toNat else 1)) with
        | .lt => ⟨q, k⟩
        | .gt => ⟨q + 1, k⟩
        | .eq => if q % 2 = 0 then ⟨q, k⟩ else ⟨q + 1, k⟩
      else if downOk then ⟨q, k⟩
      else if upOk then ⟨q + 1, k⟩
      else search (n + 1) fuel
  (search 1 17).trim

/-- How the digits of a double are laid out. -/
structure Style where
  /-- Largest position of the decimal point (counted from the first digit) written without
  an exponent. -/
  maxPositional : Int
  /-- Positions above this one, down to zero, are written with leading zeros. -/
  minPositional : Int
  /-- Whether a non-negative exponent carries a `+`. -/
  plusExponent : Bool

/-- The layout of doubles in JSON text. -/
def Style.plain : Style := { maxPositional := 16, minPositional := -5, plusExponent := true }

/-- `n` zeros. -/
def zeros (n : Nat) : String := String.ofList (List.replicate n '0')

/-- Lay out `digits · 10^exponent` (digits without trailing zeros). -/
def Style.render (st : Style) (d : Scientific) : String :=
  let ds := toString d.digits
  let len : Int := ds.length
  let kk := len + d.exponent
  if 0 ≤ d.exponent ∧ kk ≤ st.maxPositional then
    ds ++ zeros d.exponent.toNat ++ ".0"
  else if 0 < kk ∧ kk ≤ st.maxPositional then
    String.ofList (ds.toList.take kk.toNat) ++ "." ++ String.ofList (ds.toList.drop kk.toNat)
  else if st.minPositional < kk ∧ kk ≤ 0 then
    "0." ++ zeros (-kk).toNat ++ ds
  else
    let e := kk - 1
    let mant := match ds.toList with
      | c :: rest@(_ :: _) => String.ofList (c :: '.' :: rest)
      | cs => String.ofList cs
    let sign := if e < 0 then "-" else if st.plusExponent then "+" else ""
    mant ++ "e" ++ sign ++ toString e.natAbs

/-- Text of a finite double: `0.0`, `-0.0`, or its shortest digits laid out by `st`. Infinite
and NaN values have no JSON text; they are written `null`. -/
def Style.float (st : Style) (f : Float) : String :=
  let bits := f.toBits
  let negative := bits >>> 63 == 1
  let biased := (bits >>> 52) &&& 0x7FF
  if biased == 0x7FF then "null"
  else if bits &&& 0x7FFFFFFFFFFFFFFF == 0 then
    if negative then "-0.0" else "0.0"
  else
    (if negative then "-" else "") ++ st.render (shortest (Binary.ofBits bits))

/-- The shortest digits of a double written out in full, without an exponent: `1.5`, `2`,
`0.0001`, `-0`; the other doubles are `NaN`, `inf` and `-inf`. -/
def positional (f : Float) : String :=
  let bits := f.toBits
  let negative := bits >>> 63 == 1
  let sign := if negative then "-" else ""
  let biased := (bits >>> 52) &&& 0x7FF
  if biased == 0x7FF then
    if bits &&& 0xFFFFFFFFFFFFF != 0 then "NaN" else sign ++ "inf"
  else if bits &&& 0x7FFFFFFFFFFFFFFF == 0 then sign ++ "0"
  else
    let d := shortest (Binary.ofBits bits)
    let ds := toString d.digits
    let point : Int := ds.length + d.exponent
    let body :=
      if 0 ≤ d.exponent then ds ++ zeros d.exponent.toNat
      else if 0 < point then
        String.ofList (ds.toList.take point.toNat) ++ "." ++ String.ofList (ds.toList.drop point.toNat)
      else "0." ++ zeros (-point).toNat ++ ds
    sign ++ body

end Stowage.Decimal
