import Scriptlet.Analysis.State
import Scriptlet.Scalar.Arithmetic

/-!
Constants: which expressions keep the value that is known of them, and what constant expressions
evaluate to.

Evaluation goes through the operands with the operator of the whole expression and writes every
intermediate result as text.  A result of null leaves the expression to the running program.
-/

namespace Scriptlet

namespace Scalar

/-- The written result of an operator; `none` if the operands do not fit, `some none` if there is no
such operator. -/
def applied? (operator : String) (a b : Scalar) : Option (Option String) :=
  let result? : Option (Option Scalar) := match operator with
    | "+" => some (add? a b)
    | "-" => some (subtract? a b)
    | "*" => some (multiply? a b)
    | "/" => some (divide? a b)
    | "%" => some (remainder? a b)
    | ">=" => some (order? (· != .lt) a b)
    | "<=" => some (order? (· != .gt) a b)
    | ">" => some (order? (· == .gt) a b)
    | "<" => some (order? (· == .lt) a b)
    | _ => none
  match result? with
  | some result => (result.bind written?).map some
  | none => some none

end Scalar

namespace Graph

/-- The written result of an operator on values of any sort. -/
def applied? (graph : Graph) (operator a b : Value) : Option Value :=
  let truth (holds : Bool → Bool) : Option Value :=
    match graph.same a b with
    | .ok same => some (.text (Scalar.boolText (holds same)))
    | .error _ => none
  match operator, a, b with
  | .text "==", _, _ => truth id
  | .text "!=", _, _ => truth not
  | .text op, .scalar x, .scalar y =>
      (Scalar.applied? op x y).map fun result => match result with
        | some s => .text s
        | none => .null
  | .text op, _, _ => if arithmetic.contains op then none else some .null
  | _, _, _ => some .null

/-- What is known of a variable: nothing if its value can change. -/
def knownValue? (table : ScopeTable) (node : Node) : Option Value :=
  match ScopeTable.isStatic (table.lookup? (Check.nameText (node.get .name))) with
  | .ok (.bool false) => some .null
  | .ok _ => some (node.get .value)
  | .error _ => none

/-- The value of an operand under the operator of the whole expression; `none` if evaluation fails. -/
def evaluateWithin (graph : Graph) (table : ScopeTable) (operator : Value) : Nat → Value → Option Value
  | 0, _ => none
  | depth + 1, value =>
      match value with
      | .node id =>
          let node := graph.node id
          match node.kind, node.get? .left, node.get? .right with
          | .call, _, _ | .method, _, _ => some .null
          | .reference, _, _ => knownValue? table node
          | _, some left, some right =>
              match evaluateWithin graph table operator depth left,
                evaluateWithin graph table operator depth right with
              | some a, some b => if a.isNull || b.isNull then some .null else graph.applied? operator a b
              | _, _ => none
          | _, _, _ => node.get? .value
      | _ => none

/-- The value of an operation on constants, null if it is left to the running program. -/
def evaluate (graph : Graph) (table : ScopeTable) (expression : Value) : Value :=
  let operator := (graph.fieldOf? expression .operator).getD .null
  (graph.evaluateWithin table operator walkDepth expression).getD .null

def evaluateSignedWithin (graph : Graph) (table : ScopeTable) (operator : Value) :
    Nat → Value → Option Value
  | 0, _ => none
  | depth + 1, value =>
      let signed (result : Option Scalar) : Option Value :=
        (result.bind Scalar.written?).map .text
      match value with
      | .node id =>
          let node := graph.node id
          match node.kind, node.get? .left with
          | .reference, _ => knownValue? table node
          | _, some left =>
              match evaluateSignedWithin graph table operator depth left with
              | none => none
              | some operand =>
                  if operand.isNull then some .null
                  else match operator, operand with
                    | .text "+", .scalar x => signed x.affirm?
                    | .text "-", .scalar x => signed x.negate?
                    | .text "+", _ | .text "-", _ => none
                    | _, _ => some .null
          | _, none => node.get? .value
      | _ => none

/-- The value of a sign and its operand, null if it is left to the running program. -/
def evaluateSigned (graph : Graph) (table : ScopeTable) (expression : Value) : Value :=
  let operator := (graph.fieldOf? expression .operator).getD .null
  (graph.evaluateSignedWithin table operator walkDepth expression).getD .null

end Graph

namespace Check

open Draft (getField typeOf)

def evaluate (expression : Value) : Check Value := do
  return (← Draft.currentGraph).evaluate (← table) expression

def evaluateSigned (expression : Value) : Check Value := do
  return (← Draft.currentGraph).evaluateSigned (← table) expression

/-- Whether a variable has kept the value it was declared with. -/
def isStaticName (name : String) : Check Value := do
  match (← table).lookup? name with
  | none => fail ScopeTable.noSymbol
  | some symbol =>
      if symbol.kind.isNull || symbol.isParameter || symbol.isFunction then return .bool false
      else orFail (Symbol.entry symbol.variableData "isStatic" (.bool false))

/-- Whether a value is known before the program runs.  Inside a loop no variable is. -/
def isStaticWithin : Nat → Value → Check Value
  | 0, _ => fail .tooDeep
  | depth + 1, value => do
      let graph ← Draft.currentGraph
      if graph.isLiteral value then return .bool true
      match graph.kindOf? value with
      | some .reference =>
          if (← get).inLoop then return .bool false else isStaticName (← nameOf value)
      | some .unary => do isStaticWithin depth (← getField value .left)
      | some .binary =>
          let left ← isStaticWithin depth (← getField value .left)
          if left.isGiven then isStaticWithin depth (← getField value .right) else return left
      | _ => return .bool false

def isStatic (value : Value) : Check Value :=
  isStaticWithin walkDepth value

/-- The text of a literal inside a concatenation: false if the operand is no literal, null if it has
no type. -/
def operandText (operand : Value) : Check Value := do
  if operand.isNull then return .bool false
  let graph ← Draft.currentGraph
  let type ← typeOf operand
  if type.isText TypeName.string then
    if graph.isKind .string operand then getField operand .value else return .bool false
  else if type.isOneOf [TypeName.integer, TypeName.double, TypeName.boolean, TypeName.null] then
    if graph.isLiteral operand then return .text (← Draft.literal (← getField operand .value))
    else return .bool false
  else return .null

end Check

end Scriptlet
