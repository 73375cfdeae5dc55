import Scriptlet.Analysis.Promotion

/-!
The rules on the types of operands.
-/

namespace Scriptlet.Check

open Draft (getField setField typeOf display displayField)

def comparisons : List String :=
  ["==", "!=", "<", "<=", ">", ">="]

/-- What an operand of a comparison stands for: the value of a variable, if it is known. -/
def resolved (operand : Value) : Check Value := do
  if ← Draft.isKind .reference operand then
    let value ← getField operand .value
    return if value.isNull then operand else value
  else return operand

/-- Whether an operand is the name of a type that was asked for. -/
def isTypeName (operand : Value) : Check Bool := do
  if ← Draft.hasField operand .isTypeName then return (← getField operand .isTypeName).isGiven
  else return false

def typeNamed (operand : Value) : Check String := do
  match ← getField operand .value with
  | .text word => return TypeName.expand word
  | other => do fail (.notText ((← Draft.currentGraph).sortName other))

/-- Type names are compared by the types they name, in whatever way they are abbreviated. -/
def compareTypeNames (left right : Value) : Check Unit := do
  let isQuestion (operand : Value) : Check Bool := do
    if ← Draft.isKind .call operand then return (← getField operand .name).isText "typeof" else return false
  if (← isQuestion left) || (← isQuestion right) then
    let call := if ← Draft.isKind .call left then left else right
    refuse .compilation
      ("An error occurred during the evaluation of the function call: " ++ (← display call))
  let left ← resolved left
  let right ← resolved right
  if (← isTypeName left) || (← isTypeName right) then
    let leftType ← typeNamed left
    let rightType ← typeNamed right
    if leftType ≠ TypeName.invalid || rightType ≠ TypeName.invalid then
      setField left .value (.text leftType)
      setField right .value (.text rightType)

/-- Two types that can be compared although they differ. -/
def areMixedNumbers (left right : Value) : Bool :=
  (left.isText TypeName.integer && right.isText TypeName.double) ||
    (left.isText TypeName.double && right.isText TypeName.integer)

def checkArithmetic (node left leftType rightType operator : Value) : Check Unit := do
  unless isNumeric leftType && isNumeric rightType do
    refuse .type ("Illegal Binary operation on line " ++ (← displayField left .line) ++ ".\n'" ++
      (← display node) ++ "' with types: '" ++ (← display leftType) ++ "' '" ++ (← display operator) ++
      "' '" ++ (← display rightType) ++ "'")
  if operator.isText "^" then
    unless leftType.isText TypeName.double && rightType.isText TypeName.double do
      promotePower node

def checkComparison (node left right leftType rightType operator : Value) : Check Unit := do
  let types : Check String := do
    return "'" ++ (← display leftType) ++ "' '" ++ (← display operator) ++ "' '" ++ (← display rightType) ++ "'"
  if !isSame leftType rightType then
    unless areMixedNumbers leftType rightType do
      refuse .type ("Type mismatch in comparison on line " ++ (← displayField left .line) ++ ". '" ++
        (← display node) ++ "' with type: " ++ (← types))
  else if !leftType.isOneOf comparableTypes then
    refuse .type ("Illegal Comparison on line " ++ (← displayField left .line) ++ ".'" ++
      (← display node) ++ "' with the evaluated types: " ++ (← types))
  else if leftType.isText TypeName.string && !operator.isOneOf ["==", "!="] then
    let _ ← displayField left .line
    fail .missingLine
  compareTypeNames left right

def checkOperands (node left right operator leftType rightType : Value) : Check Unit := do
  if operator.isOneOf arithmetic then checkArithmetic node left leftType rightType operator
  else if operator.isOneOf comparisons then checkComparison node left right leftType rightType operator
  else if operator.isOneOf ["&&", "||"] then
    unless leftType.isText TypeName.boolean && rightType.isText TypeName.boolean do
      refuse .type ("Invalid expression on line " ++ (← displayField left .line) ++
        ". Please ensure correct types are being compared: " ++ (← display node) ++ " ")

def checkOperation (node : Value) : Check Unit := do
  let left ← getField node .left
  let right ← getField node .right
  let operator ← getField node .operator
  let leftType ← typeOf left
  let rightType ← typeOf right
  checkOperands node left right operator leftType rightType

def checkCondition (node : Value) : Check Unit := do
  let type ← typeOf node
  unless type.isText TypeName.boolean do
    let shown ← if type.isNull then pure "Invalid" else display type
    refuse .type ("Expression on line " ++ (← displayField (← getField node .left) .line) ++
      " does not evaluate to boolean, but to: '" ++ shown ++ "'.\n '" ++ (← display node) ++ "'")

def checkUnary (operand operator : Value) : Check Unit := do
  let type ← typeOf operand
  let start (word : String) : Check String := do
    return word ++ (← displayField operand .line) ++ ": '" ++ (← display operator) ++ (← display operand) ++ "' "
  if operator.isText "!" then
    unless type.isText TypeName.boolean do
      refuse .semantic ((← start "Unary Operation on line ") ++
        "does not have a boolean operand, but one of: '" ++ (← display type) ++ "'")
  else if operator.isOneOf ["-", "+"] then
    unless isNumeric type do
      refuse .semantic ((← start "Unary Operation on line ") ++
        "does not have a numeric operand, but one of type: '" ++ (← display type) ++ "'")
  else
    refuse .semantic ((← start "Invalid Unary Operation on ") ++ "Invalid operator: '" ++
      (← display operator) ++ "'")

end Scriptlet.Check
