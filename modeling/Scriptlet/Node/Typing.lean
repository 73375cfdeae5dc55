import Scriptlet.Node.Wording
import Scriptlet.TypeName

/-!
The type of a node, read off the node.  Operations remember their type once it is known.
-/

namespace Scriptlet

def literalType (kind : Kind) (value : Value) : String :=
  match kind, value with
  | .integer, .int _ | .integer, .bool _ => TypeName.integer
  | .double, .double _ => TypeName.double
  | .boolean, .text word =>
      let lowered := Text.trimBlank (String.ofList (word.toList.map Char.toLower))
      if lowered = "true" || lowered = "false" then TypeName.boolean else TypeName.invalid
  | .string, .text _ => TypeName.string
  | .null, _ => TypeName.null
  | _, _ => TypeName.invalid

def isNumeric (type : Value) : Bool :=
  type.isOneOf [TypeName.integer, TypeName.double]

def arithmetic : List String := ["+", "-", "*", "/", "%", "^"]

/-- The type of an arithmetic operation, if there is one for the types of its operands. -/
def binaryType? (operator left right : Value) : Option String :=
  if operator.isOneOf arithmetic then
    if isNumeric left && isNumeric right then
      some (if left.isText TypeName.double || right.isText TypeName.double then TypeName.double
        else TypeName.integer)
    else if operator.isText "+" && (left.isText TypeName.string || right.isText TypeName.string) then
      some TypeName.string
    else none
  else none

def comparableTypes : List String :=
  [TypeName.integer, TypeName.double, TypeName.string, TypeName.boolean]

namespace Draft

def invalidType : Value := .text TypeName.invalid

def typeWithin : Nat → Value → Action Value
  | 0, _ => fail .tooDeep
  | depth + 1, value => do
      let graph ← currentGraph
      let .node id := value | throw (graph.missing value "evaluateType")
      let node := graph.node id
      let orInvalid (type : Value) : Value := if type.isNull then invalidType else type
      let remember (field : Field) (type : String) : Action Value := do
        setField value field (.text type)
        return .text type
      match node.kind with
      | .plain | .program | .block | .function | .breaking | .conditional | .loop | .expression =>
          throw (graph.missing value "evaluateType")
      | .declaration | .update | .returning =>
          if (node.get .value).isNull then return invalidType
          else typeWithin depth (node.get .value)
      | .reference | .call => return orInvalid (node.get .type)
      | .parameter => return node.get .type
      | .argument =>
          if (node.get .cachedType).isNull then typeWithin depth (node.get .value)
          else return node.get .cachedType
      | .method => return orInvalid (← getField value .returnType)
      | .concat => return .text TypeName.string
      | .binary =>
          unless (node.get .cachedType).isNull do
            return node.get .cachedType
          let left ← typeWithin depth (node.get .left)
          let right ← typeWithin depth (node.get .right)
          match binaryType? (node.get .operator) left right with
          | some type => remember .cachedType type
          | none => return invalidType
      | .unary =>
          unless (node.get .ownCachedType).isNull do
            return node.get .ownCachedType
          let left ← typeWithin depth (node.get .left)
          let operator := node.get .operator
          if operator.isText "!" then
            if left.isText TypeName.boolean then remember .ownCachedType TypeName.boolean
            else return invalidType
          else if operator.isOneOf ["-", "+"] then
            match left with
            | .text type =>
                if isNumeric left then remember .ownCachedType type else return invalidType
            | _ => return invalidType
          else return invalidType
      | .comparison =>
          unless (node.get .ownCachedType).isNull do
            return node.get .ownCachedType
          let left ← typeWithin depth (node.get .left)
          let right ← typeWithin depth (node.get .right)
          if left.isOneOf comparableTypes && right.isOneOf comparableTypes then
            remember .ownCachedType TypeName.boolean
          else return invalidType
      | .logical =>
          unless (node.get .ownCachedType).isNull do
            return node.get .ownCachedType
          let left ← typeWithin depth (node.get .left)
          let right ← typeWithin depth (node.get .right)
          if left.isText TypeName.boolean && right.isText TypeName.boolean then
            remember .ownCachedType TypeName.boolean
          else return invalidType
      | .integer | .double | .boolean | .string | .null =>
          return .text (literalType node.kind (node.get .value))

def typeOf (value : Value) : Action Value :=
  typeWithin walkDepth value

end Draft

end Scriptlet
