import Scriptlet.Analysis.Constant

/-!
Concatenations: a sum with a text among its operands becomes one node that lists its parts, and parts
that are known beforehand are joined.
-/

namespace Scriptlet.Check

open Draft (getField setField typeOf display displayField)

/-- Whether a node is a sum of texts. -/
def isTextSum (node : Value) : Check Bool := do
  if ← Draft.isKind .binary node then
    if (← getField node .operator).isText "+" then
      return (← typeOf node).isText TypeName.string
  return false

/-- The types that can stand in a concatenation. -/
def joinableTypes : List String :=
  [TypeName.string, TypeName.integer, TypeName.double, TypeName.boolean, TypeName.null]

/-- The parts of a sum of texts, from left to right. -/
def partsWithin (visit : Value → Check Unit) : Nat → Value → Check (List Value)
  | 0, _ => fail .tooDeep
  | depth + 1, node => do
      if ← isTextSum node then
        let left ← partsWithin visit depth (← getField node .left)
        let right ← partsWithin visit depth (← getField node .right)
        return left ++ right
      visit node
      let type ← typeOf node
      if type.isOneOf joinableTypes then
        if ← Draft.isKind .reference node then
          let scope := (← table).scopeOf? (← nameOf node)
          setField node .scope (match scope with
            | some index => .int index
            | none => .null)
        return [node]
      else
        refuse .type ("Illegal Expression in String concatenation: " ++ (← display node) ++
          "  with types:'" ++ (← typeText node) ++ "' '+' '" ++ (← typeText node) ++ "'")

/-- Puts a concatenation in the place of an operation; other nodes stay as they are. -/
def toConcat (visit : Value → Check Unit) (node : Value) : Check Value := do
  if ← Draft.isKind .binary node then
    let parts ← partsWithin visit walkDepth node
    let concat ← Draft.newConcat (.list parts) (← getField node .parent) (← getField node .line)
    Draft.replace node concat
    setField node .transformed (.bool true)
    modify fun analysis => { analysis with concats := analysis.concats ++ [concat] }
    return concat
  else return node

/-- Turns an operation with a text operand into a concatenation, and tells whether it was one. -/
def concatCheck (visit : Value → Check Unit) (node : Value) : Check Bool := do
  let left ← getField node .left
  let right ← getField node .right
  let _ ← getField node .operator
  unless ← Draft.isKind .binary (← getField node .left) do visit left
  unless ← Draft.isKind .binary (← getField node .right) do visit right
  let leftType ← typeOf left
  let rightType ← typeOf right
  if leftType.isText TypeName.string || rightType.isText TypeName.string then
    if (← getField node .parent).isNull then
      refuse .compilation ("AST node for String concatenation:\n" ++ (← display node) ++
        "\nhas no parent attr. cannot continue")
    let concat ← toConcat visit node
    Draft.isKind .concat concat
  else return false

/-- A concatenation that is being joined: the parts done, the texts to be joined next, and whether
everything was known so far. -/
structure Joining where
  done : List Value := []
  buffer : List Value := []
  isComplete : Bool := true

namespace Joining

/-- Joins texts; anything else among them is a fault. -/
def joinFrom (graph : Graph) : Nat → List Value → Except Fault String
  | _, [] => .ok ""
  | position, .text s :: rest => (joinFrom graph (position + 1) rest).map (s ++ ·)
  | position, other :: _ => .error (.textJoin position (graph.sortName other))

def flush (graph : Graph) (joining : Joining) : Except Fault Joining :=
  if joining.buffer.isEmpty then .ok joining
  else (joinFrom graph 0 joining.buffer).map fun text =>
    { joining with done := joining.done ++ [.text text], buffer := [] }

def push (joining : Joining) (text : Value) : Joining :=
  { joining with buffer := joining.buffer ++ [text] }

/-- Leaves a part to the running program. -/
def defer (graph : Graph) (joining : Joining) (part : Value) : Except Fault Joining :=
  (flush graph joining).map fun flushed =>
    { flushed with done := flushed.done ++ [part], isComplete := false }

end Joining

/-- What is known of a variable in a concatenation; false if it is left to the running program. -/
def referenceText (node : Value) : Check Value := do
  let name ← nameOf node
  let table ← table
  let symbol ← match ← getField node .scope with
    | .int index => orFail (table.lookupIn? index name)
    | _ => pure (table.lookup? name)
  if (← orFail (ScopeTable.isStatic symbol)).isGiven then operandText (← getField node .value)
  else return .bool false

/-- Joins one more part. -/
def joinPart (joining : Joining) (part : Value) : Check Joining := do
  let graph ← Draft.currentGraph
  let later : Check Joining := orFail (joining.defer graph part)
  match graph.kindOf? part with
  | some .reference =>
      if (← getField part .value).isNull then later
      else match ← referenceText part with
        | .bool false => later
        | text => return joining.push text
  | some .call => later
  | some kind =>
      if kind.isLiteral then return joining.push (← operandText part)
      else if kind.isOperation then
        let value ← if kind = .unary then evaluateSigned part else evaluate part
        if value.isNull then later else return joining.push value
      else throw (.ofMessage .type ("Unsupported type in string concatenation: " ++ kind.name))
  | none =>
      throw (.ofMessage .type ("Unsupported type in string concatenation: " ++ graph.sortName part))

/-- Joins the parts of a concatenation as far as they are known. -/
def joinConcat (node : Value) : Check Unit := do
  let parts ← Draft.itemsOf (← getField node .strings)
  let joined ← parts.foldlM joinPart ({} : Joining)
  let graph ← Draft.currentGraph
  let finished ← orFail (joined.flush graph)
  if finished.isComplete then
    let text ← orFail (Joining.joinFrom graph 0 finished.done)
    let string ← Draft.newString (.text text)
    setField node .evaluated string
    setField node .strings (.list [string])
  else
    setField node .evaluated .null
    setField node .strings (.list finished.done)

end Scriptlet.Check
