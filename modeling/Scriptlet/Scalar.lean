import Scriptlet.Number.Reading
import Scriptlet.Number.Shortest
import Scriptlet.Text.Quoted

/-!
Scalars: what a token or a literal can hold, with their written forms and their equality.
-/

namespace Scriptlet

inductive Scalar where
  | null
  | bool (value : Bool)
  | int (value : Int)
  | double (value : Float)
  | text (value : String)
  deriving Inhabited

namespace Scalar

def sortName : Scalar → String
  | null => "NoneType"
  | bool _ => "bool"
  | int _ => "int"
  | double _ => "float"
  | text _ => "str"

def boolText (value : Bool) : String :=
  if value then "True" else "False"

/-- The written form that shows what sort of scalar it is: texts are quoted. -/
def literal : Scalar → String
  | null => "None"
  | bool value => boolText value
  | int value => toString value
  | double value => Number.floatText value
  | text value => Text.quote value

/-- The written form inside other text: texts stand for themselves. -/
def display : Scalar → String
  | text value => value
  | other => other.literal

/-- Whether a scalar counts as given: not null, false, zero or empty. -/
def isGiven : Scalar → Bool
  | null => false
  | bool value => value
  | int value => value != 0
  | double value => value != 0
  | text value => !value.isEmpty

/-- The integer that a scalar is; truth values count as 0 and 1. -/
def toInt? : Scalar → Option Int
  | bool value => some (if value then 1 else 0)
  | int value => some value
  | _ => none

/-- How two numbers compare; `none` if one of them is no number. -/
def compareNumbers? : Scalar → Scalar → Option Ordering
  | double a, double b => if a < b then some .lt else if b < a then some .gt else if a == b then some .eq else none
  | double a, b => b.toInt?.bind fun i => (Number.compareIntFloat i a).map Ordering.swap
  | a, double b => a.toInt?.bind fun i => Number.compareIntFloat i b
  | a, b => match a.toInt?, b.toInt? with
      | some i, some j => some (compare i j)
      | _, _ => none

/-- Numbers are equal by value, whatever their sort; texts by their characters. -/
def same : Scalar → Scalar → Bool
  | null, null => true
  | text a, text b => a == b
  | a, b => compareNumbers? a b == some .eq

def isText (word : String) : Scalar → Bool
  | text value => value == word
  | _ => false

end Scalar

end Scriptlet
