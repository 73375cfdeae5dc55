import Scriptlet.Number.Fixed
import Scriptlet.Scalar

/-!
Arithmetic on scalars, as constant expressions use it: integers of any size, quotients that are
always doubles, remainders with the sign of the divisor, and texts that can be joined, repeated and
filled in.
-/

namespace Scriptlet.Scalar

/-- The double nearest to a number; `none` for what is no number or too large. -/
def toDouble? : Scalar → Option Float
  | double x => some x
  | other => other.toInt?.bind Number.ofInt?

/-- An operation on numbers: on integers if both are, on doubles if not. -/
def onNumbers? (onInts : Int → Int → Option Scalar) (onDoubles : Float → Float → Option Scalar)
    (a b : Scalar) : Option Scalar :=
  match a.toInt?, b.toInt? with
  | some i, some j => onInts i j
  | _, _ => match a.toDouble?, b.toDouble? with
      | some x, some y => onDoubles x y
      | _, _ => none

def add? : Scalar → Scalar → Option Scalar
  | text s, text t => some (.text (s ++ t))
  | a, b => onNumbers? (fun i j => some (.int (i + j))) (fun x y => some (.double (x + y))) a b

def subtract? : Scalar → Scalar → Option Scalar :=
  onNumbers? (fun i j => some (.int (i - j))) (fun x y => some (.double (x - y)))

/-- The longest text that repetition makes. -/
def maxRepeated : Nat := Nat.pow 2 32

def repeatText? (s : String) (count : Int) : Option Scalar :=
  if maxRepeated < s.length * count.toNat then none
  else some (.text (String.join (List.replicate count.toNat s)))

def multiply? : Scalar → Scalar → Option Scalar
  | text s, b => b.toInt?.bind (repeatText? s)
  | a, text t => a.toInt?.bind (repeatText? t)
  | a, b => onNumbers? (fun i j => some (.int (i * j))) (fun x y => some (.double (x * y))) a b

/-- The quotient; there is none by zero. -/
def divide? : Scalar → Scalar → Option Scalar :=
  onNumbers? (fun i j => if j = 0 then none else (Number.divideInts? i j).map .double)
    (fun x y => if y == 0 then none else some (.double (x / y)))

/-- What stands for a value in a text that is filled in. -/
def placeholder? (directive : Char) (value : Scalar) : Option String :=
  match directive with
  | 's' => some value.display
  | 'r' => some value.literal
  | 'd' | 'i' => match value with
      | double x => match Number.decode x with
          | .finite _ => some (toString (Number.truncateToInt64 x).toInt)
          | _ => none
      | other => other.toInt?.map toString
  | 'f' => value.toDouble?.map (Number.fixedText 6)
  | _ => none

/-- Fills the one placeholder of a text; a doubled mark stands for itself. -/
def fill? (value : Scalar) : Bool → List Char → Option (List Char)
  | filled, [] => if filled then some [] else none
  | filled, '%' :: '%' :: rest => (fill? value filled rest).map ('%' :: ·)
  | filled, '%' :: c :: rest =>
      if filled then none
      else match placeholder? c value, fill? value true rest with
        | some shown, some tail => some (shown.toList ++ tail)
        | _, _ => none
  | _, ['%'] => none
  | filled, c :: rest => (fill? value filled rest).map (c :: ·)

/-- The remainder, with the sign of the divisor; there is none by zero. -/
def remainder? : Scalar → Scalar → Option Scalar
  | text s, b => (fill? b false s.toList).map fun chars => .text (String.ofList chars)
  | a, b =>
      onNumbers? (fun i j => if j = 0 then none else some (.int (i.fmod j)))
        (fun x y => if y == 0 then none else some (.double (Number.floorRemainder x y))) a b

/-- Compares two numbers or two texts; `holds` tells for which outcomes the comparison is true, and
it is false for what cannot be ordered. -/
def order? (holds : Ordering → Bool) : Scalar → Scalar → Option Scalar
  | text s, text t => some (.bool (holds (compare s t)))
  | double x, double y => some (.bool ((compareNumbers? (.double x) (.double y)).any holds))
  | double x, b => b.toInt?.map fun _ => .bool ((compareNumbers? (.double x) b).any holds)
  | a, double y => a.toInt?.map fun _ => .bool ((compareNumbers? a (.double y)).any holds)
  | a, b => match a.toInt?, b.toInt? with
      | some i, some j => some (.bool (holds (compare i j)))
      | _, _ => none

def negate? : Scalar → Option Scalar
  | double x => some (.double (-x))
  | other => other.toInt?.map fun i => .int (-i)

/-- A number as it is; truth values become integers. -/
def affirm? : Scalar → Option Scalar
  | double x => some (.double x)
  | other => other.toInt?.map .int

/-- The written form of a result; integers of more digits than can be read back have none. -/
def written? : Scalar → Option String
  | int i => if i.natAbs < Nat.pow 10 Number.maxIntDigits then some (toString i) else none
  | other => some other.display

end Scriptlet.Scalar
