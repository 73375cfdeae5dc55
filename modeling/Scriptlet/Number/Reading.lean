import Scriptlet.Number.Binary64
import Scriptlet.Text.Blank
import Scriptlet.Text.Digit

/-!
Reading numbers from text.

`readInt?` and `readFloat?` take whole texts: decimal digits of any script, single underscores
between digits, white space around the number.  `scanInt` and `scanFloat` take the longest number at
the front of a byte string and ignore what follows.
-/

namespace Scriptlet.Number

open Scriptlet.Text

def maxIntDigits : Nat := 4300

/-- The values of a run of decimal digits, where single underscores may stand between digits. -/
def readDigits? : List Char → Option (List Nat)
  | [] => some []
  | [c] => (decimalValue? c).map fun d => [d]
  | c :: '_' :: rest =>
      if rest.isEmpty then none
      else match decimalValue? c, readDigits? rest with
        | some d, some ds => if ds.isEmpty then none else some (d :: ds)
        | _, _ => none
  | c :: rest =>
      match decimalValue? c, readDigits? rest with
      | some d, some ds => some (d :: ds)
      | _, _ => none

def ofDigits (digits : List Nat) : Nat :=
  digits.foldl (fun n d => 10 * n + d) 0

def splitSign : List Char → Bool × List Char
  | '-' :: rest => (true, rest)
  | '+' :: rest => (false, rest)
  | text => (false, text)

def trimmed (s : String) : List Char :=
  (trimBlank s).toList

def readInt? (s : String) : Option Int :=
  let (negative, body) := splitSign (trimmed s)
  match readDigits? body with
  | some digits =>
      if digits.isEmpty || maxIntDigits < digits.length then none
      else some (if negative then -(ofDigits digits : Int) else ofDigits digits)
  | none => none

/-- The double `± whole.fraction · 10 ^ exponent`. -/
def ofDecimalParts (negative : Bool) (whole fraction : List Nat) (exponent : Int) : Float :=
  let mantissa := ofDigits (whole ++ fraction)
  let shift := exponent - fraction.length
  let size : Int := (whole ++ fraction).length
  if mantissa = 0 then ofRatio negative 0 1
  else if shift + size < -400 then ofRatio negative 0 1
  else if 400 < shift + size - ((whole ++ fraction).takeWhile (· == 0)).length then infinity negative
  else ofScaled negative mantissa 10 shift

def splitAtChar (p : Char → Bool) (text : List Char) : List Char × Option (List Char) :=
  match text.dropWhile (fun c => !p c) with
  | [] => (text, none)
  | _ :: rest => (text.takeWhile (fun c => !p c), some rest)

/-- A signed run of digits after an exponent mark. -/
def readExponent? (text : List Char) : Option Int :=
  let (negative, body) := splitSign text
  match readDigits? body with
  | some digits =>
      if digits.isEmpty then none
      else some (if negative then -(ofDigits digits : Int) else ofDigits digits)
  | none => none

def readFloat? (s : String) : Option Float :=
  let (negative, body) := splitSign (trimmed s)
  let word := String.ofList (body.map Char.toLower)
  if word = "inf" || word = "infinity" then some (infinity negative)
  else if word = "nan" then some (Float.ofBits 0x7FF8000000000000)
  else
    let (significand, exponentPart) := splitAtChar (fun c => c == 'e' || c == 'E') body
    let (whole, fractionPart) := splitAtChar (· == '.') significand
    let exponent? := match exponentPart with
      | none => some 0
      | some text => readExponent? text
    match readDigits? whole, readDigits? (fractionPart.getD []), exponent? with
    | some ws, some fs, some exponent =>
        if ws.isEmpty && fs.isEmpty then none else some (ofDecimalParts negative ws fs exponent)
    | _, _, _ => none

/-- The white space that a byte scanner skips. -/
def isSpaceByte (b : UInt8) : Bool :=
  b == 32 || (9 ≤ b && b ≤ 13)

def isDigitByte (b : UInt8) : Bool :=
  48 ≤ b && b ≤ 57

def digitBytes (bytes : List UInt8) : List Nat × List UInt8 :=
  ((bytes.takeWhile isDigitByte).map fun b => b.toNat - 48, bytes.dropWhile isDigitByte)

def splitSignByte : List UInt8 → Bool × List UInt8
  | 45 :: rest => (true, rest)
  | 43 :: rest => (false, rest)
  | bytes => (false, bytes)

/-- The integer at the front of a byte string; one that does not fit 64 bits stops at the nearest
that does. -/
def scanInt (bytes : List UInt8) : Int64 :=
  let (negative, body) := splitSignByte (bytes.dropWhile isSpaceByte)
  let magnitude : Int := ofDigits (digitBytes body).1
  let number := if negative then -magnitude else magnitude
  Int64.ofInt (max (-Int.pow 2 63) (min (Int.pow 2 63 - 1) number))

def lowerByte (b : UInt8) : UInt8 :=
  if 65 ≤ b && b ≤ 90 then b + 32 else b

def startsWithWord (word : String) (bytes : List UInt8) : Bool :=
  word.toUTF8.toList == (bytes.take word.length).map lowerByte

def hexValue? (b : UInt8) : Option Nat :=
  let c := lowerByte b
  if isDigitByte c then some (c.toNat - 48)
  else if 97 ≤ c && c ≤ 102 then some (c.toNat - 87)
  else none

def hexBytes (bytes : List UInt8) : List Nat × List UInt8 :=
  ((bytes.takeWhile fun b => (hexValue? b).isSome).filterMap hexValue?,
    bytes.dropWhile fun b => (hexValue? b).isSome)

/-- The exponent behind a mark; no digits, no exponent. -/
def scanExponent (mark : UInt8) (bytes : List UInt8) : Int :=
  match bytes with
  | b :: rest =>
      if lowerByte b == mark then
        let (negative, body) := splitSignByte rest
        let magnitude : Int := ofDigits (digitBytes body).1
        if negative then -magnitude else magnitude
      else 0
  | [] => 0

def pointThen (digits : List UInt8 → List Nat × List UInt8) (bytes : List UInt8) :
    List Nat × List UInt8 :=
  match bytes with
  | 46 :: rest => digits rest
  | _ => ([], bytes)

def scanDecimal (negative : Bool) (body : List UInt8) : Float :=
  let (whole, afterWhole) := digitBytes body
  let (fraction, afterFraction) := pointThen digitBytes afterWhole
  if whole.isEmpty && fraction.isEmpty then 0
  else ofDecimalParts negative whole fraction (scanExponent 101 afterFraction)

def scanHex (negative : Bool) (body : List UInt8) : Float :=
  let (whole, afterWhole) := hexBytes body
  let (fraction, afterFraction) := pointThen hexBytes afterWhole
  if whole.isEmpty && fraction.isEmpty then ofRatio negative 0 1
  else
    let mantissa := (whole ++ fraction).foldl (fun n d => 16 * n + d) 0
    let exponent := scanExponent 112 afterFraction - 4 * fraction.length
    if mantissa = 0 || exponent < -4000 - 4 * (whole ++ fraction).length then ofRatio negative 0 1
    else if 4000 < exponent then infinity negative
    else ofScaled negative mantissa 2 exponent

/-- The double at the front of a byte string, 0 if there is none. -/
def scanFloat (bytes : List UInt8) : Float :=
  let (negative, body) := splitSignByte (bytes.dropWhile isSpaceByte)
  if startsWithWord "inf" body then infinity negative
  else if startsWithWord "nan" body then Float.ofBits 0x7FF8000000000000
  else match body with
    | 48 :: x :: rest =>
        if lowerByte x == 120 && ((hexBytes rest).1 ++ (pointThen hexBytes rest).1) != [] then
          scanHex negative rest
        else scanDecimal negative body
    | _ => scanDecimal negative body

end Scriptlet.Number
