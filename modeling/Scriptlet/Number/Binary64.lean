/-!
Doubles as exact numbers.  A finite double is a signed multiple of a power of two; every operation
here works on that number with natural-number arithmetic and rounds at most once, to the nearest
double, a tie going to the even neighbour.
-/

namespace Scriptlet.Number

/-- What a finite double stands for: `± mantissa · 2 ^ exponent`. -/
structure Dyadic where
  negative : Bool
  mantissa : Nat
  exponent : Int
  deriving Repr, DecidableEq

/-- A double: a number, an infinity, or no number at all. -/
inductive Decoded where
  | finite (number : Dyadic)
  | infinite (negative : Bool)
  | nan (negative : Bool)
  deriving Repr, DecidableEq

def decode (x : Float) : Decoded :=
  let bits := x.toBits.toNat
  let negative := decide (Nat.pow 2 63 ≤ bits)
  let biased : Nat := bits / Nat.pow 2 52 % Nat.pow 2 11
  let fraction : Nat := bits % Nat.pow 2 52
  if biased = 2047 then
    if fraction = 0 then .infinite negative else .nan negative
  else if biased = 0 then .finite ⟨negative, fraction, -1074⟩
  else .finite ⟨negative, fraction + Nat.pow 2 52, (biased : Int) - 1075⟩

/-- The multiple of `base ^ exponent` as a numerator and a denominator. -/
def scaledRatio (mantissa base : Nat) (exponent : Int) : Nat × Nat :=
  (mantissa * Nat.pow base exponent.toNat, Nat.pow base (-exponent).toNat)

/-- `num / den` rounded to an integer, a tie going to the even one. -/
def roundDiv (num den : Nat) : Nat :=
  let quotient := num / den
  let twice := 2 * (num % den)
  if den < twice || (twice = den && quotient % 2 = 1) then quotient + 1 else quotient

/-- The largest `k` with `2 ^ k ≤ num / den`, for positive arguments. -/
def log2Ratio (num den : Nat) : Int :=
  let guess : Int := (num.log2 : Int) - (den.log2 : Int)
  if den * Nat.pow 2 guess.toNat ≤ num * Nat.pow 2 (-guess).toNat then guess else guess - 1

def infinity (negative : Bool) : Float :=
  Float.ofBits (UInt64.ofNat (2047 * Nat.pow 2 52 + if negative then Nat.pow 2 63 else 0))

/-- The double nearest to `± num / den`. -/
def ofRatio (negative : Bool) (num den : Nat) : Float :=
  let sign := if negative then Nat.pow 2 63 else 0
  if num = 0 then Float.ofBits (UInt64.ofNat sign)
  else
    let exponent := max (log2Ratio num den - 52) (-1074)
    let mantissa := roundDiv (num * Nat.pow 2 (-exponent).toNat) (den * Nat.pow 2 exponent.toNat)
    let bits :=
      if mantissa < Nat.pow 2 52 then mantissa
      else (exponent + 1075).toNat * Nat.pow 2 52 + (mantissa - Nat.pow 2 52)
    if 2047 * Nat.pow 2 52 ≤ bits then infinity negative else Float.ofBits (UInt64.ofNat (bits + sign))

/-- The double nearest to `± mantissa · base ^ exponent`. -/
def ofScaled (negative : Bool) (mantissa base : Nat) (exponent : Int) : Float :=
  let (num, den) := scaledRatio mantissa base exponent
  ofRatio negative num den

/-- The double nearest to an integer; `none` if the integer is too large. -/
def ofInt? (i : Int) : Option Float :=
  let x := ofRatio (i < 0) i.natAbs 1
  if x.isInf then none else some x

/-- The double nearest to a quotient of integers; `none` if the quotient is too large.
The divisor is not zero. -/
def divideInts? (a b : Int) : Option Float :=
  let x := ofRatio ((a < 0) != (b < 0)) a.natAbs b.natAbs
  if x.isInf then none else some x

/-- The remainder of a division that goes toward zero; it has the sign of the dividend. -/
def remainder (x y : Float) : Float :=
  match decode x, decode y with
  | .finite a, .finite b =>
      if b.mantissa = 0 then Float.ofBits 0x7FF8000000000000
      else
        let exponent := min a.exponent b.exponent
        let left := a.mantissa * Nat.pow 2 (a.exponent - exponent).toNat
        let right := b.mantissa * Nat.pow 2 (b.exponent - exponent).toNat
        ofScaled a.negative (left % right) 2 exponent
  | .finite _, .infinite _ => x
  | _, _ => Float.ofBits 0x7FF8000000000000

/-- The remainder with the sign of the divisor. -/
def floorRemainder (x y : Float) : Float :=
  let rest := remainder x y
  if rest == 0 then ofRatio (y < 0 || (decode y matches .finite ⟨true, _, _⟩)) 0 1
  else if (y < 0) != (rest < 0) then rest + y
  else rest

/-- How an integer compares with a double, exactly; `none` if the double is no number. -/
def compareIntFloat (i : Int) (x : Float) : Option Ordering :=
  match decode x with
  | .nan _ => none
  | .infinite negative => some (if negative then .gt else .lt)
  | .finite d =>
      let (num, den) := scaledRatio d.mantissa 2 d.exponent
      let number : Int := if d.negative then -(num : Int) else num
      some (compare (i * den) number)

/-- The integer part of a double, as a 64-bit word; what does not fit becomes the least word. -/
def truncateToInt64 (x : Float) : Int64 :=
  match decode x with
  | .finite d =>
      let (num, den) := scaledRatio d.mantissa 2 d.exponent
      let whole : Int := if d.negative then -((num / den : Nat) : Int) else ((num / den : Nat) : Int)
      if -Int.pow 2 63 ≤ whole && whole < Int.pow 2 63 then Int64.ofInt whole else Int64.minValue
  | _ => Int64.minValue

end Scriptlet.Number
