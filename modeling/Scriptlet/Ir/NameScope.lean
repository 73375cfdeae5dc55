/-!
Distinct names.  A name that is taken gets a number behind it; the empty name always counts as taken.
-/

namespace Scriptlet.Ir

structure NameScope where
  used : List String := [""]
  /-- The last number tried for each name. -/
  counters : List (String × Nat) := []
  deriving Inhabited

namespace NameScope

def isUsed (scope : NameScope) (name : String) : Bool :=
  scope.used.contains name

def counter (scope : NameScope) (base : String) : Nat :=
  (scope.counters.lookup base).getD 0

def numbered (base : String) (number : Nat) : String :=
  base ++ "." ++ toString number

/-- The first free number from a given one on; `tries` numbers are looked at. -/
def freeNumber (scope : NameScope) (base : String) : Nat → Nat → Nat
  | 0, number => number
  | tries + 1, number =>
      if scope.isUsed (numbered base number) then freeNumber scope base tries (number + 1) else number

def setCounter (base : String) (number : Nat) : List (String × Nat) → List (String × Nat)
  | [] => [(base, number)]
  | (name, old) :: rest =>
      if name = base then (name, number) :: rest else (name, old) :: setCounter base number rest

def take (scope : NameScope) (name : String) : NameScope :=
  { scope with used := name :: scope.used }

/-- A name that is not taken, as close to the wanted one as possible. -/
def fresh (scope : NameScope) (base : String) : String × NameScope :=
  if scope.isUsed base then
    let number := scope.freeNumber base scope.used.length (scope.counter base + 1)
    let name := numbered base number
    (name, { scope.take name with counters := setCounter base number scope.counters })
  else (base, scope.take base)

end NameScope

end Scriptlet.Ir
