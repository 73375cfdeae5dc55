import Scriptlet.Number.Binary64

/-!
The shortest decimal that reads back as a given double, and its layout.

`shortestDigits` tries 1, 2, …, 17 significant digits.  On each grid it looks at the two neighbours
of the exact value; the first grid with a neighbour inside the rounding interval wins, and of two
hits the nearer one.
-/

namespace Scriptlet.Number

/-- A positive decimal: `digits · 10 ^ exponent`. -/
structure Decimal where
  digits : Nat
  exponent : Int
  deriving Repr, DecidableEq

/-- The reals that round to a positive double, as numerators over one denominator. -/
structure RoundingInterval where
  low : Nat
  value : Nat
  high : Nat
  den : Nat
  closed : Bool

/-- Half a gap on either side; the gap below a power of two is half as wide. -/
def roundingInterval (mantissa : Nat) (exponent : Int) : RoundingInterval :=
  let up := Nat.pow 2 (exponent - 2).toNat
  let below := if mantissa = Nat.pow 2 52 && -1074 < exponent then 1 else 2
  { low := (4 * mantissa - below) * up
    value := 4 * mantissa * up
    high := (4 * mantissa + 2) * up
    den := Nat.pow 2 (2 - exponent).toNat
    closed := mantissa % 2 = 0 }

/-- Whether `candidate · 10 ^ unit` lies in the interval. -/
def RoundingInterval.holds (interval : RoundingInterval) (candidate : Nat) (unit : Int) : Bool :=
  let (num, den) := scaledRatio candidate 10 unit
  let point := num * interval.den
  if interval.closed then interval.low * den ≤ point && point ≤ interval.high * den
  else interval.low * den < point && point < interval.high * den

def digitCount (n : Nat) : Nat :=
  (Nat.toDigits 10 n).length

/-- The largest `k` with `10 ^ k ≤ num / den`, for positive arguments. -/
def log10Ratio (num den : Nat) : Int :=
  if den ≤ num then (digitCount (num / den) : Int) - 1
  else
    let guess := digitCount (den / num)
    if den ≤ num * Nat.pow 10 (guess - 1) then -((guess : Int) - 1) else -(guess : Int)

/-- The shortest decimal in the interval among those of `count` up to `count + fuel` digits. -/
def shortestFrom (interval : RoundingInterval) (magnitude : Int) : Nat → Nat → Decimal
  | 0, count => ⟨0, count⟩
  | fuel + 1, count =>
      let unit := magnitude - count + 1
      let (num, den) := scaledRatio 1 10 unit
      let left := interval.value * den
      let right := interval.den * num
      let lower := left / right
      let upper := lower + 1
      let lowerHit := interval.holds lower unit
      let upperHit := interval.holds upper unit
      if lowerHit && upperHit then
        let twice := 2 * (left % right)
        if twice < right || (twice = right && lower % 2 = 0) then ⟨lower, unit⟩ else ⟨upper, unit⟩
      else if lowerHit then ⟨lower, unit⟩
      else if upperHit then ⟨upper, unit⟩
      else shortestFrom interval magnitude fuel (count + 1)

/-- The shortest decimal that rounds to `mantissa · 2 ^ exponent`, for a positive mantissa. -/
def shortestDigits (mantissa : Nat) (exponent : Int) : Decimal :=
  let interval := roundingInterval mantissa exponent
  shortestFrom interval (log10Ratio interval.value interval.den) 17 1

/-- Where positional notation ends, and how the other notation is written. -/
structure FloatLayout where
  leastPositional : Int
  pastPositional : Int
  exponentMark : String
  exponentWidth : Nat

/-- Positional from `10 ^ -4` up to `10 ^ 16`; otherwise `e`, a sign and at least two digits. -/
def FloatLayout.standard : FloatLayout :=
  { leastPositional := -4, pastPositional := 16, exponentMark := "e", exponentWidth := 2 }

/-- The digits of a positive decimal without trailing zeros, and the power of ten of the first. -/
def Decimal.normal (d : Decimal) : List Char × Int :=
  let all := Nat.toDigits 10 d.digits
  let kept := (all.reverse.dropWhile (· == '0')).reverse
  (kept, d.exponent + all.length - 1)

def zeros (count : Nat) : List Char :=
  List.replicate count '0'

def FloatLayout.exponentText (layout : FloatLayout) (exponent : Int) : List Char :=
  let digits := Nat.toDigits 10 exponent.natAbs
  layout.exponentMark.toList ++ [if exponent < 0 then '-' else '+'] ++
    zeros (layout.exponentWidth - digits.length) ++ digits

/-- A positive decimal in the layout. -/
def FloatLayout.decimal (layout : FloatLayout) (d : Decimal) : List Char :=
  let (digits, magnitude) := d.normal
  if layout.leastPositional ≤ magnitude && magnitude < layout.pastPositional then
    if magnitude < 0 then
      ['0', '.'] ++ zeros (-magnitude - 1).toNat ++ digits
    else
      let whole := digits.take (magnitude.toNat + 1)
      let fraction := digits.drop (magnitude.toNat + 1)
      whole ++ zeros (magnitude.toNat + 1 - digits.length) ++ ['.'] ++
        (if fraction.isEmpty then ['0'] else fraction)
  else
    digits.take 1 ++ (if digits.length > 1 then '.' :: digits.drop 1 else []) ++
      layout.exponentText magnitude

/-- The text of a double: the fewest digits that read back. -/
def floatText (x : Float) : String :=
  match decode x with
  | .nan _ => "nan"
  | .infinite negative => if negative then "-inf" else "inf"
  | .finite d =>
      let sign := if d.negative then ['-'] else []
      let body :=
        if d.mantissa = 0 then ['0', '.', '0']
        else FloatLayout.standard.decimal (shortestDigits d.mantissa d.exponent)
      String.ofList (sign ++ body)

end Scriptlet.Number
