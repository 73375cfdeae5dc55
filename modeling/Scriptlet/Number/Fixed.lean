import Scriptlet.Number.Shortest

/-!
Doubles with a fixed number of decimal places.
-/

namespace Scriptlet.Number

/-- A natural number with the last `places` digits behind a point. -/
def placePoint (places n : Nat) : List Char :=
  let digits := Nat.toDigits 10 n
  let padded := zeros (places + 1 - digits.length) ++ digits
  padded.take (padded.length - places) ++ '.' :: padded.drop (padded.length - places)

/-- A double with `places` decimal places; the exact value is rounded, a tie to the even digit. -/
def fixedText (places : Nat) (x : Float) : String :=
  let signed (negative : Bool) (body : List Char) : String :=
    String.ofList (if negative then '-' :: body else body)
  match decode x with
  | .nan negative => signed negative "nan".toList
  | .infinite negative => signed negative "inf".toList
  | .finite d =>
      let (num, den) := scaledRatio d.mantissa 2 d.exponent
      signed d.negative (placePoint places (roundDiv (num * Nat.pow 10 places) den))

end Scriptlet.Number
