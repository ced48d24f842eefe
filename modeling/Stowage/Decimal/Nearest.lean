/-!
Reading decimal text as the nearest double.

`nearest` rounds `mantissa · 10^scale` to the nearest double; values far beyond the range of
doubles are settled before rounding, so no huge power of ten is ever built. `decimalFloat` reads
digits, a fraction and an exponent already known to be well formed. `standardFloat?` checks the
usual float syntax first: an optional sign, then `inf`, `infinity` or `nan` in any case, or
digits with an optional point (at least one digit on some side of it) and an optional exponent.
-/
namespace Stowage.Decimal

/-- The value of decimal digits. -/
def digitsNat (ds : List Char) : Nat := ds.foldl (fun n c => n * 10 + (c.toNat - '0'.toNat)) 0

/-- The double nearest to `mantissa · 10^scale`, negated when `negative` holds. -/
def nearest (negative : Bool) (mantissa : Nat) (scale : Int) : Float :=
  let digits := (toString mantissa).length
  let magnitude : Float :=
    if mantissa = 0 then 0
    else if digits + scale > 310 then 1.0 / 0.0
    else if digits + scale < -330 then 0
    else if scale ≥ 0 then Float.ofScientific mantissa false scale.toNat
    else Float.ofScientific mantissa true scale.natAbs
  if negative then -magnitude else magnitude

/-- The double nearest to a decimal written as sign, digits, fraction digits and exponent; the
text is taken to be well formed. -/
def decimalFloat (t : String) : Float :=
  let cs := t.toList
  let (negative, cs) := match cs with
    | '-' :: rest => (true, rest)
    | '+' :: rest => (false, rest)
    | _ => (false, cs)
  let intDigits := cs.takeWhile Char.isDigit
  let cs := cs.drop intDigits.length
  let (fracDigits, cs) := match cs with
    | '.' :: rest => (rest.takeWhile Char.isDigit, rest.dropWhile Char.isDigit)
    | _ => ([], cs)
  let exp : Int := match cs with
    | 'e' :: rest | 'E' :: rest =>
      match rest with
      | '-' :: ds => -((digitsNat ds : Nat) : Int)
      | '+' :: ds => digitsNat ds
      | ds => digitsNat ds
    | _ => 0
  nearest negative (digitsNat (intDigits ++ fracDigits)) (exp - fracDigits.length)

/-- Whether the characters are one or more decimal digits. -/
def allDigits (cs : List Char) : Bool := !cs.isEmpty && cs.all Char.isDigit

/-- Whether an unsigned text is digits with an optional point and an optional exponent, with a
digit on at least one side of the point. -/
def isDecimalText (cs : List Char) : Bool :=
  let mant := cs.takeWhile (fun c => c != 'e' && c != 'E')
  let rest := cs.drop mant.length
  let intPart := mant.takeWhile (· != '.')
  let afterInt := mant.drop intPart.length
  let mantOk := match afterInt with
    | [] => allDigits intPart
    | _ :: frac => intPart.all Char.isDigit && frac.all Char.isDigit &&
        !(intPart.isEmpty && frac.isEmpty)
  let expOk := match rest with
    | [] => true
    | _ :: e => match e with
      | '+' :: ds | '-' :: ds => allDigits ds
      | ds => allDigits ds
  mantOk && expOk

/-- Read text in the usual float syntax; `none` when it is not such text. -/
def standardFloat? (t : String) : Option Float :=
  let (negative, body) := match t.toList with
    | '-' :: rest => (true, rest)
    | '+' :: rest => (false, rest)
    | cs => (false, cs)
  let word := (String.ofList body).toLower
  let signed := fun (f : Float) => if negative then -f else f
  if word == "inf" || word == "infinity" then some (signed (1.0 / 0.0))
  else if word == "nan" then some (0.0 / 0.0)
  else if isDecimalText body then some (decimalFloat t)
  else none

end Stowage.Decimal
