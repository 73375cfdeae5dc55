import Scriptlet.Library
import Scriptlet.Node.Replacement
import Scriptlet.Scope.Table

/-!
The state of the analysis of a program: the table of scopes, the concatenations found so far, and
what encloses the current place.
-/

namespace Scriptlet

structure Analysis extends Draft where
  table : ScopeTable := {}
  /-- Concatenations that are evaluated once the whole program has been seen. -/
  concats : List Value := []
  functionName : Value := .null
  functionType : Value := .null
  inLoop : Bool := false
  deriving Inhabited

instance : Carries Analysis where
  draft analysis := analysis.toDraft
  withDraft analysis draft := { analysis with toDraft := draft }

abbrev Check := EStateM Failure Analysis

namespace Check

open Draft (getField setField typeOf display displayField)

def table : Check ScopeTable :=
  return (← get).table

def setTable (table : ScopeTable) : Check Unit :=
  modify fun analysis => { analysis with table }

def changeTable (change : ScopeTable → Except Fault ScopeTable) : Check Unit := do
  setTable (← orFail (change (← table)))

/-- Announces a complaint and gives up. -/
def refuse {α : Type} (kind : ComplaintKind) (message : String) (line : Scalar := .null) : Check α := do
  (Journal.announce (.ofMessage kind message) true line : Draft.Action Unit)
  throw .exit

def nameText : Value → String
  | .scalar name => name.display
  | _ => ""

def nameOf (node : Value) : Check String := do
  return nameText (← getField node .name)

def lineOf (node : Value) : Check Scalar := do
  match ← getField node .line with
  | .scalar line => return line
  | _ => return .null

def isSame (a b : Value) : Bool :=
  match a, b with
  | .scalar x, .scalar y => x.same y
  | _, _ => false

def toDouble (value : Value) : Check Float := do
  match value with
  | .text s => match Number.readFloat? s with
      | some x => return x
      | none => fail (.unreadableNumber s)
  | .double x => return x
  | .scalar s => match s.toInt? with
      | some i => match Number.ofInt? i with
          | some x => return x
          | none => fail .tooLargeForDouble
      | none => fail (.notNumeric s.sortName)
  | other => do fail (.notNumeric ((← Draft.currentGraph).sortName other))

/-- Puts a double in the place of the value of a literal. -/
def promoted (literal : Value) : Check Value := do
  Draft.newDouble (.double (← toDouble (← getField literal .value)))

def typeText (node : Value) : Check String := do
  display (← typeOf node)

end Check

end Scriptlet
