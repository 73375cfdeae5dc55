import Scriptlet.Node.Wording
import Scriptlet.Text.Column

/-!
The indented listing of a node and what is below it.
-/

namespace Scriptlet.Draft

def printIndented (indent : Nat) (text : String) : Action Unit :=
  printLine (Text.blanks indent ++ text)

def listWithin : Nat → Nat → Value → Action Unit
  | 0, _, _ => fail .tooDeep
  | depth + 1, indent, value => do
      let graph ← currentGraph
      let .node id := value | throw (graph.missing value "print_content")
      let node := graph.node id
      let title (text : String) : Action Unit := printIndented indent text
      let below (text : String) : Action Unit := printIndented (indent + 2) text
      let child (field : Field) : Action Unit := listWithin depth (indent + 2) (node.get field)
      let childOr (field : Field) (absent : String) : Action Unit :=
        if (node.get field).isNull then below absent else child field
      let statements : Action Unit := do
        for statement in ← itemsOf (node.get .statements) do
          if statement.isNull then below "null" else listWithin depth (indent + 2) statement
      let clause (condition : Value) : Action Unit :=
        if condition.isGiven then listWithin depth (indent + 2) condition else below "None"
      match node.kind with
      | .plain => fail .abstract
      | .program => statements
      | .block =>
          title "Block"
          statements
      | .declaration =>
          title ("VariableDeclaration: " ++ (← display (node.get .name)))
          unless (node.get .declaredType).isNull do
            below ("Type Annotation: " ++ (← display (node.get .declaredType)))
          childOr .value "Value: None"
      | .reference =>
          let type ← if (node.get .type).isNull then pure ""
            else pure (":'" ++ (← display (node.get .type)) ++ "'")
          title ("VariableReference: '" ++ (← display (node.get .name)) ++ "':" ++ type ++ " ")
      | .update =>
          title ("VariableUpdated: " ++ (← display (node.get .name)) ++ " ")
          childOr .value "Value: None"
      | .function =>
          title ("FunctionDeclaration: " ++ (← display (node.get .name)) ++ " (return_type: " ++
            (← display (node.get .returnType)) ++ ")")
          below ("Parameters: (" ++ (← display (node.get .parameters)) ++ ")")
          child .block
      | .returning => title ("Return: " ++ (← display (node.get .value)))
      | .breaking => title "Break"
      | .parameter =>
          title ("Parameter: " ++ (← display (node.get .name)) ++ " (type: " ++
            (← display (node.get .type)) ++ ")")
      | .call =>
          title ("FunctionCall: " ++ (← display (node.get .name)))
          unless (node.get .parent).isNull do
            below ("parent : " ++ (← display (node.get .parent)))
          if 0 < (← lengthOf (node.get .args)) then
            for argument in ← itemsOf (node.get .args) do
              listWithin depth (indent + 2) argument
          else below "Arguments: None"
      | .argument =>
          title ("Argument: " ++ (← literal (node.get .value)))
          unless (node.get .parent).isNull do
            fail (.textPlus "int")
      | .method =>
          title ("MethodCall: " ++ (← display (node.get .name)) ++ "()")
          if graph.isKind .method (node.get .receiver) then
            below "Receiver:"
            listWithin depth (indent + 4) (node.get .receiver)
          else below ("Receiver: " ++ (← display (node.get .receiver)))
          if (node.get .args).isGiven then
            below "Arguments:"
            for argument in ← itemsOf (node.get .args) do
              listWithin depth (indent + 4) argument
          else below "Arguments: None"
      | .conditional =>
          title "If"
          clause (node.get .comparison)
          clause (node.get .block)
          if (node.get .elifNodes).isGiven then
            for branch in ← itemsOf (node.get .elifNodes) do
              let (condition, block) ← pairOf branch
              title "Elif"
              clause condition
              clause block
          unless (node.get .elseBlock).isNull do
            title "Else"
            child .elseBlock
      | .loop =>
          title "While"
          child .comparison
          child .block
      | .concat =>
          let evaluated := node.get .evaluated
          title ("StringCat (evaluated: " ++ Scalar.boolText (!evaluated.isNull) ++ ")")
          if evaluated.isNull then
            for part in ← itemsOf (node.get .strings) do
              match part with
              | .node _ => listWithin depth (indent + 2) part
              | other => below (← display other)
          else below (← display evaluated)
      | .expression =>
          title "Expression"
          child .left
          below ("Operator: " ++ (← display (node.get .operator)))
          child .right
      | .binary =>
          title ("BinaryOp (Operator " ++ (← display (node.get .operator)) ++ ")")
          child .left
          child .right
      | .unary =>
          title ("UnaryOp (Operator: " ++ (← display (node.get .operator)) ++ ")")
          child .left
      | .comparison | .logical =>
          title (node.kind.name ++ " (Operator: " ++ (← display (node.get .operator)) ++ ")")
          child .left
          child .right
      | .integer | .double | .boolean | .string =>
          title (node.kind.name ++ ": " ++ (← display (node.get .value)))
      | .null => title "Null"

def list (value : Value) (indent : Nat := 0) : Action Unit :=
  listWithin walkDepth indent value

end Scriptlet.Draft
