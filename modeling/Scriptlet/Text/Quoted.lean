import Scriptlet.Text.Printable

/-!
Quoted text.  A text is put between apostrophes, or between double quotes if it holds an apostrophe
and no double quote; what cannot be printed is written by its code.
-/

namespace Scriptlet.Text

def hexDigits (width value : Nat) : String :=
  let digits := Nat.toDigits 16 value
  String.ofList (List.replicate (width - digits.length) '0' ++ digits)

def quoteFor (s : String) : Char :=
  if s.toList.contains '\'' && !s.toList.contains '"' then '"' else '\''

/-- One character between the quotes `mark`. -/
def quoteChar (mark c : Char) : String :=
  if c == mark || c == '\\' then String.ofList ['\\', c]
  else if c == '\n' then "\\n"
  else if c == '\r' then "\\r"
  else if c == '\t' then "\\t"
  else if isPrintable c then c.toString
  else if c.toNat ≤ 0xFF then "\\x" ++ hexDigits 2 c.toNat
  else if c.toNat ≤ 0xFFFF then "\\u" ++ hexDigits 4 c.toNat
  else "\\U" ++ hexDigits 8 c.toNat

def quote (s : String) : String :=
  let mark := quoteFor s
  mark.toString ++ String.join (s.toList.map (quoteChar mark)) ++ mark.toString

end Scriptlet.Text
