import Scriptlet.Analysis.State

/-!
Promotion: integer literals become doubles where the expression around them asks for doubles.
-/

namespace Scriptlet.Check

open Draft (getField setField typeOf display displayField)

/-- Promotes one operand of an expression, or what is below it. -/
def promoteSide (below : Value → Check Unit) (node : Value) (field : Field) (type : Value) : Check Unit := do
  if type.isText TypeName.integer then
    let operand ← getField node field
    if ← Draft.isKind .integer operand then setField node field (← promoted operand)
    else below operand
    setField node .cachedType .null

/-- Promotes the integer literals of an expression of type double. -/
def promoteWithin : Nat → Value → Value → Check Unit
  | 0, _, _ => fail .tooDeep
  | depth + 1, type, node => do
      let left ← typeOf (← getField node .left)
      let right ← typeOf (← getField node .right)
      if type.isText TypeName.double then
        promoteSide (promoteWithin depth type) node .left left
        promoteSide (promoteWithin depth type) node .right right

def promote (node : Value) : Check Unit := do
  promoteWithin walkDepth (← typeOf node) node

/-- Promotes the integer literals of a power. -/
def promotePowerWithin : Nat → Value → Value → Check Unit
  | 0, _, _ => fail .tooDeep
  | depth + 1, type, node => do
      if type.isText TypeName.double then return
      if ← Draft.isKind .reference node then return
      let type ← if type.isGiven then pure type else typeOf node
      let left ← typeOf (← getField node .left)
      let right ← typeOf (← getField node .right)
      if type.isText TypeName.integer then
        if ← Draft.isKind .binary node then
          promoteSide (promotePowerWithin depth type) node .left left
          promoteSide (promotePowerWithin depth type) node .right right
      else
        refuse .type ("Invalid type in exponentiation on line " ++ (← displayField node .line) ++ ": '" ++
          (← display node) ++ "' with types'" ++ (← display left) ++ "' '^' '" ++ (← display right) ++ "'")

def promotePower (node : Value) : Check Unit :=
  promotePowerWithin walkDepth .null node

end Scriptlet.Check
