import Scriptlet.Node.Typing

/-!
New nodes of each kind.
-/

namespace Scriptlet.Draft

abbrev newProgram (statements : Value) : Action Value :=
  addNode .program [(.statements, statements), (.symbols, .null)]

abbrev newBlock (statements : Value) : Action Value :=
  addNode .block [(.statements, statements)]

abbrev newDeclaration (name value : Value) (line declaredType : Value := .null) : Action Value :=
  addNode .declaration [(.name, name), (.value, value), (.declaredType, declaredType), (.line, line)]

abbrev newReference (name : Value) (line : Value := .null) : Action Value :=
  addNode .reference
    [(.name, name), (.line, line), (.value, .null), (.type, .null), (.scope, .null)]

abbrev newUpdate (name value : Value) (line : Value := .null) : Action Value :=
  addNode .update [(.name, name), (.value, value), (.line, line)]

def newFunction (name returnType parameters block : Value) (line : Value := .null) :
    Action Value := do
  let arity ← lengthOf parameters
  addNode .function
    [(.name, name), (.returnType, returnType), (.parameters, parameters), (.block, block),
      (.arity, .int arity), (.line, line)]

abbrev newReturn (value : Value) (line : Value := .null) : Action Value :=
  addNode .returning [(.value, value), (.line, line)]

abbrev newBreak (line : Value) : Action Value :=
  addNode .breaking [(.line, line)]

abbrev newParameter (name type : Value) : Action Value :=
  addNode .parameter [(.name, name), (.type, type)]

def newCall (name args : Value) (parent line : Value := .null) : Action Value := do
  let arity ← lengthOf args
  addNode .call
    [(.name, name), (.args, args), (.arity, .int arity), (.parent, parent), (.line, line),
      (.type, .null), (.transformed, .null)]

abbrev newArgument (value : Value) (name : Value := .null) : Action Value :=
  addNode .argument [(.name, name), (.value, value), (.parent, .null), (.cachedType, .null)]

abbrev newMethod (receiver name args : Value) (line : Value := .null) : Action Value :=
  addNode .method
    [(.receiver, receiver), (.name, name), (.args, args), (.receiverType, .null), (.line, line)]

abbrev newConditional (comparison block : Value) (line : Value := .null)
    (elifNodes : Value := .list []) (elseBlock : Value := .null) : Action Value :=
  addNode .conditional
    [(.comparison, comparison), (.block, block), (.elifNodes, elifNodes), (.elseBlock, elseBlock),
      (.line, line)]

abbrev newLoop (comparison block : Value) (line : Value := .null) : Action Value :=
  addNode .loop [(.comparison, comparison), (.block, block), (.line, line)]

abbrev newConcat (strings parent : Value) (line : Value := .null) : Action Value :=
  addNode .concat [(.strings, strings), (.line, line), (.parent, parent), (.evaluated, .null)]

abbrev newExpression (left operator right : Value) (line : Value := .null) : Action Value :=
  addNode .expression [(.left, left), (.operator, operator), (.right, right), (.line, line)]

abbrev newBinary (left operator right : Value) (parent line : Value := .null) : Action Value :=
  addNode .binary
    [(.left, left), (.operator, operator), (.right, right), (.cachedType, .null),
      (.parent, parent), (.transformed, .null), (.line, line)]

abbrev newUnary (operator left : Value) (line : Value := .null) : Action Value :=
  addNode .unary
    [(.operator, operator), (.left, left), (.ownCachedType, .null), (.right, .null), (.line, line)]

abbrev newComparison (left operator right : Value) (line : Value := .null) : Action Value :=
  addNode .comparison
    [(.left, left), (.operator, operator), (.right, right), (.ownCachedType, .null), (.line, line)]

abbrev newLogical (left operator right : Value) (line : Value := .null) : Action Value :=
  addNode .logical
    [(.left, left), (.operator, operator), (.right, right), (.ownCachedType, .null), (.line, line)]

abbrev newLiteral (kind : Kind) (value : Value) (line : Value := .null) : Action Value :=
  addNode kind [(.value, value), (.line, line), (.type, .text (literalType kind value))]

abbrev newInteger (value : Value) (line : Value := .null) : Action Value :=
  newLiteral .integer value line

abbrev newDouble (value : Value) (line : Value := .null) : Action Value :=
  newLiteral .double value line

abbrev newBoolean (value : Value) (line : Value := .null) : Action Value :=
  newLiteral .boolean value line

abbrev newString (value : Value) (isTypeName line : Value := .null) : Action Value :=
  addNode .string
    [(.value, value), (.isTypeName, isTypeName), (.line, line),
      (.type, .text (literalType .string value))]

abbrev newNull (line : Value := .null) : Action Value :=
  newLiteral .null .null line

abbrev newPlain : Action Value :=
  addNode .plain []

end Scriptlet.Draft
