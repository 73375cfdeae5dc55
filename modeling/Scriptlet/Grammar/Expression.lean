import Scriptlet.Grammar.Cursor

/-!
Expressions, from the weakest binding to the strongest: logical operators, equality, order, sums,
products, powers, signs, primaries.

Sums associate to the right and all other operators to the left.  The numeral argument of a rule is
the number of steps it may take.  A missing operand is null.
-/

namespace Scriptlet.Parse

/-- Operators that associate to the left: joins what stands on the left with one operand after the
other. -/
def leftChain (operators : List TokenKind) (operand : Parse Value)
    (join : Value → Value → Value → Parse Value) : Nat → Value → Parse Value
  | 0, _ => fail .outOfSteps
  | count + 1, left => do
      if ← check operators then
        let operator ← currentValue
        next
        let right ← operand
        let joined ← join left (.scalar operator) right
        leftChain operators operand join count joined
      else return left

def joinLogical (left operator right : Value) : Parse Value := do
  Draft.newLogical left operator right (← line)

/-- A comparison becomes the parent of its operands. -/
def joinComparison (left operator right : Value) : Parse Value := do
  let node ← Draft.newComparison left operator right (← line)
  Draft.setField left .parent node
  Draft.setField right .parent node
  return node

/-- A sum belongs to the node in focus and becomes the parent of its operands. -/
def joinSum (left operator right : Value) : Parse Value := do
  let node ← Draft.newBinary left operator right (← get).focus (← line)
  Draft.setField left .parent node
  Draft.setField right .parent node
  return node

/-- A product keeps the line in the place of its parent. -/
def joinProduct (left operator right : Value) : Parse Value := do
  Draft.newBinary left operator right (← line)

def stepNode (name : Value) (operator : String) : Parse Value := do
  let reference ← Draft.newReference name (← line)
  let sum ← Draft.newBinary reference (.text operator) (← Draft.newInteger (.int 1))
  Draft.newUpdate name sum (← line)

/-- Arguments up to the closing parenthesis; a comma may follow each of them. -/
def argumentList (item : Parse (List Value)) (count : Nat) : Parse (List Value) :=
  repeatUntil [.rightParen, .eof, .newline]
    (do
      let items ← item
      if ← check [.comma] then expect [.comma]
      return items)
    count

def callArgument (expression : Parse Value) : Parse (List Value) := do
  let argument ← Draft.newArgument .null
  setFocus argument
  let value ← expression
  if value.isNull then return []
  Draft.setField argument .value value
  if ← Draft.hasField value .parent then
    if (← Draft.getField value .parent).isNull then
      Draft.setField value .parent argument
  return [argument]

/-- A chain of method calls on a receiver. -/
def methodChain (expression : Parse Value) : Nat → Value → Parse Value
  | 0, _ => fail .outOfSteps
  | count + 1, receiver => do
      if ← check [.dot] then
        next
        let name ← currentValue
        expect [.identifier]
        expect [.leftParen] (some ("Missing opening '(' parenthesis after method call: " ++ name.display))
        let arguments ← argumentList (return [← expression]) count
        expect [.rightParen]
          (some ("Could not find enclosing bracket ')'for the method call: " ++ name.display ++ "(..."))
        let call ← Draft.newMethod receiver (.scalar name) (.list arguments) (← line)
        methodChain expression count call
      else
        setFocus .null
        return receiver

/-- The call of a function by its name, and the methods called on its result. -/
def functionCall (expression : Parse Value) (count : Nat) (name : Value) : Parse Value := do
  expect [.leftParen]
  let arguments ← argumentList (callArgument expression) count
  let shown ← Draft.display name
  expect [.rightParen]
    (some ("Could not find enclosing bracket ')' for the function call: " ++ shown ++ "(..."))
  setFocus .null
  let call ← Draft.newCall name (.list arguments) .null (← line)
  if ← check [.dot] then methodChain expression count call else return call

/-- What a name stands for in an expression: a call, a method call, an update or a variable. -/
def named (expression : Parse Value) (count : Nat) : Parse Value := do
  let name := Value.scalar (← currentValue)
  expect [.identifier]
  if ← check [.leftParen] then functionCall expression count name
  else if ← check [.dot] then
    let receiver ← Draft.newReference name (← line)
    methodChain expression count receiver
  else if ← check [.increment] then
    next
    stepNode name "+"
  else if ← check [.decrement] then
    next
    stepNode name "-"
  else Draft.newReference name (← line)

def literalNode (kind : Kind) (value : Value) : Parse Value := do
  let node ← Draft.newLiteral kind value (← line)
  next
  return node

/-- A literal, a name, or an expression in parentheses. -/
def primaryWith (expression : Parse Value) (count : Nat) : Parse Value := do
  match (← get).currentKind? with
  | some .integer => do literalNode .integer (.scalar (← currentValue))
  | some .double => do literalNode .double (.scalar (← currentValue))
  | some .boolean =>
      let value ← currentValue
      literalNode .boolean (.text (if value.isText "true" then "true" else "false"))
  | some .string =>
      let node ← Draft.newString (.scalar (← currentValue)) .null (← line)
      next
      return node
  | some .null => literalNode .null .null
  | some .identifier => named expression count
  | some .leftParen =>
      next
      let node ← expression
      let line := (← get).line
      expect [.rightParen] (some ("Missing closing parenthesis for expression on line " ++ toString line))
      return node
  | _ =>
      complain ("Unexpected token in expression: " ++ (← currentValue).literal)
      return .null

def unaryWith (primary : Parse Value) : Parse Value := do
  if ← check [.plus, .minus, .not] then
    let operator ← currentValue
    next
    let operand ← primary
    Draft.newUnary (.scalar operator) operand (← line)
  else primary

/-- The exponent of a power; at the end of a line it is two. -/
def exponent (unary : Parse Value) : Parse Value := do
  if ← check [.newline] then Draft.newDouble (.int 2) else unary

mutual

def expression : Nat → Parse Value
  | 0 => fail .outOfSteps
  | count + 1 => do
      leftChain [.and, .or] (equality count) joinLogical count (← equality count)

def equality : Nat → Parse Value
  | 0 => fail .outOfSteps
  | count + 1 => do
      leftChain [.equal, .notEqual] (comparison count) joinComparison count (← comparison count)

def comparison : Nat → Parse Value
  | 0 => fail .outOfSteps
  | count + 1 => do
      leftChain [.greater, .greaterEqual, .less, .lessEqual] (additive count) joinComparison count
        (← additive count)

def additive : Nat → Parse Value
  | 0 => fail .outOfSteps
  | count + 1 => do
      let left ← term count
      if ← check [.plus, .minus] then
        let operator ← currentValue
        next
        let right ← additive count
        joinSum left (.scalar operator) right
      else return left

def term : Nat → Parse Value
  | 0 => fail .outOfSteps
  | count + 1 => do
      leftChain [.asterisk, .slash, .modulo] (factor count) joinProduct count (← factor count)

def factor : Nat → Parse Value
  | 0 => fail .outOfSteps
  | count + 1 => do
      leftChain [.power] (exponent (unary count)) joinProduct count (← unary count)

def unary : Nat → Parse Value
  | 0 => fail .outOfSteps
  | count + 1 => unaryWith (primary count)

def primary : Nat → Parse Value
  | 0 => fail .outOfSteps
  | count + 1 => primaryWith (expression count) count

end

end Scriptlet.Parse
