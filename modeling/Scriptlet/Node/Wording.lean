import Scriptlet.Node.Graph

/-!
The written forms of values.  `Graph.literal` shows what a value is; `Graph.display` is the form that
stands inside other text.  Both give up on a graph that nests too deeply.
-/

namespace Scriptlet

namespace Graph

def anonymous (kind : Kind) : String :=
  "<Compiler.utils.ast." ++ kind.name ++ " object at 0x0>"

def joined (separator : String) (parts : List String) : String :=
  String.intercalate separator parts

def itemsOf? : Value → Option (List Value)
  | .list items | .tuple items => some items
  | _ => none

def items (graph : Graph) (value : Value) : Except Failure (List Value) :=
  match value with
  | .list items | .tuple items => .ok items
  | .record entries => .ok (entries.map fun entry => .text entry.1)
  | .text s => .ok (s.toList.map fun c => .text c.toString)
  | other => .error (.fault (.notIterable (graph.sortName other)))

mutual

/-- The form that stands inside other text. -/
def displayWithin (graph : Graph) : Nat → Value → Except Failure String
  | 0, _ => .error (.fault .tooDeep)
  | depth + 1, value =>
      match value with
      | .scalar s => .ok s.display
      | .node id => displayNode graph depth (graph.node id)
      | other => literalWithin graph depth other

/-- The form that shows what a value is. -/
def literalWithin (graph : Graph) : Nat → Value → Except Failure String
  | 0, _ => .error (.fault .tooDeep)
  | depth + 1, value =>
      match value with
      | .scalar s => .ok s.literal
      | .node id => literalNode graph depth (graph.node id)
      | .list items => do
          return "[" ++ joined ", " (← items.mapM (literalWithin graph depth)) ++ "]"
      | .tuple [item] => do return "(" ++ (← literalWithin graph depth item) ++ ",)"
      | .tuple items => do
          return "(" ++ joined ", " (← items.mapM (literalWithin graph depth)) ++ ")"
      | .record entries => do
          let parts ← entries.mapM fun (key, content) =>
            return Text.quote key ++ ": " ++ (← literalWithin graph depth content)
          return "\x7b" ++ joined ", " parts ++ "\x7d"

def displayNode (graph : Graph) : Nat → Node → Except Failure String
  | 0, _ => .error (.fault .tooDeep)
  | depth + 1, node => do
      let shown (field : Field) : Except Failure String :=
        displayWithin graph depth (node.get field)
      let all (separator : String) (field : Field) : Except Failure String := do
        if (node.get field).isGiven then
          return joined separator (← (← graph.items (node.get field)).mapM (displayWithin graph depth))
        else return ""
      match node.kind with
      | .plain => return anonymous .plain
      | .program => return "Program(" ++ (← shown .statements) ++ ")"
      | .block => return "Block(" ++ (← shown .statements) ++ ")"
      | .declaration => return "set '" ++ (← shown .name) ++ "' '=' '" ++ (← shown .value) ++ "'"
      | .reference => shown .name
      | .update => shown .value
      | .function =>
          let parameters ← (← graph.items (node.get .parameters)).mapM (displayWithin graph depth)
          return "function " ++ (← shown .name) ++ "([" ++ joined ", " parameters ++ "]) \x7b...\x7d"
      | .returning => shown .value
      | .breaking => return "Break"
      | .parameter => shown .name
      | .call => return (← shown .name) ++ "(" ++ (← all "," .args) ++ ")"
      | .argument =>
          match node.get .value with
          | .list items => return "[" ++ joined ", " (← items.mapM (displayWithin graph depth)) ++ "]"
          | _ => shown .value
      | .method =>
          let arguments ← all "," .args
          return (← shown .receiver) ++ "." ++ (← shown .name) ++ "(" ++ arguments ++ ")"
      | .conditional | .loop => shown .comparison
      | .concat => if (node.get .evaluated).isNull then shown .strings else shown .evaluated
      | .expression => .error (.fault .abstract)
      | .binary | .comparison =>
          return (← shown .left) ++ " '" ++ (← shown .operator) ++ "' " ++ (← shown .right)
      | .unary => return "'" ++ (← shown .operator) ++ (← shown .left) ++ "'"
      | .logical =>
          return "'" ++ (← shown .left) ++ "' '" ++ (← shown .operator) ++ "' '" ++ (← shown .right) ++ "'"
      | .integer | .double | .boolean => shown .value
      | .string => return "'" ++ (← shown .value) ++ "'"
      | .null => return "Null"

def literalNode (graph : Graph) : Nat → Node → Except Failure String
  | 0, _ => .error (.fault .tooDeep)
  | depth + 1, node => do
      let shown (field : Field) : Except Failure String :=
        displayWithin graph depth (node.get field)
      let literal (field : Field) : Except Failure String :=
        literalWithin graph depth (node.get field)
      let named (content : String) : String := node.kind.name ++ "(" ++ content ++ ")"
      match node.kind with
      | .plain | .program | .block | .expression => return anonymous node.kind
      | .declaration => return named ("'" ++ (← shown .name) ++ "'")
      | .reference | .update | .function | .parameter | .call => return named (← shown .name)
      | .returning => return named (← literal .value)
      | .breaking => return "Break"
      | .argument =>
          match node.get .value with
          | .list items =>
              return named ("[" ++ joined ", " (← items.mapM (literalWithin graph depth)) ++ "]")
          | _ => return named (← literal .value)
      | .method => return named ((← shown .receiver) ++ "." ++ (← shown .name) ++ "(...)")
      | .conditional | .loop => return named (← literal .comparison)
      | .concat => return named ("eval: " ++ Scalar.boolText (!(node.get .evaluated).isNull))
      | .binary | .comparison =>
          return named ((← literal .left) ++ " '" ++ (← shown .operator) ++ "' " ++ (← literal .right))
      | .unary => return named ((← shown .operator) ++ (← literal .left))
      | .logical =>
          return named ("'" ++ (← literal .left) ++ "' '" ++ (← shown .operator) ++ "' '" ++
            (← literal .right) ++ "'")
      | .integer | .double | .boolean => return named (← shown .value)
      | .string => return "\"" ++ (← shown .value) ++ "\""
      | .null => return "Null"

end

def display (graph : Graph) (value : Value) : Except Failure String :=
  graph.displayWithin walkDepth value

def literal (graph : Graph) (value : Value) : Except Failure String :=
  graph.literalWithin walkDepth value

end Graph

namespace Draft

def display (value : Value) : Action String := do
  (← currentGraph).display value

def literal (value : Value) : Action String := do
  (← currentGraph).literal value

def displayField (value : Value) (field : Field) : Action String := do
  display (← getField value field)

end Draft

end Scriptlet
