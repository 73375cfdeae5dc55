/-!
Sets of characters given by ranges of code points.
-/

namespace Scriptlet.Text

/-- Ranges of code points, each as the number of code points to leave out before it and the number of those that
it holds.  So the ranges ascend and have nothing in common. -/
abbrev Ranges := List (Nat × Nat)

/-- The place of a code point in its range; the search stops at the first range that starts above it. -/
def Ranges.offset? : Ranges → Nat → Option Nat
  | [], _ => none
  | (gap, size) :: rest, code =>
      if code < gap then none
      else if code < gap + size then some (code - gap)
      else Ranges.offset? rest (code - (gap + size))

def Ranges.containsCode (ranges : Ranges) (code : Nat) : Bool :=
  (ranges.offset? code).isSome

def Ranges.contains (ranges : Ranges) (c : Char) : Bool :=
  ranges.containsCode c.toNat

end Scriptlet.Text
