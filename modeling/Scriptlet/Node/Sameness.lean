import Scriptlet.Node.Graph

/-!
When two values are the same.

Nodes are compared by kind and by the attributes that matter for their kind; a function call and a
concatenation also by their parents, so that a comparison on a graph with cycles may never end.
Inside collections an item is the same as itself without looking into it.
-/

namespace Scriptlet

namespace Graph

/-- Whether two items of collections are one and the same. -/
def identical : Value → Value → Bool
  | .node a, .node b => a == b
  | .double a, .double b => a.toBits == b.toBits
  | _, _ => false

/-- Kinds whose nodes can be the same as nodes of this kind. -/
def comparable (left right : Kind) : Bool :=
  if left.isLiteral then right.isLiteral else left == right

/-- The attributes that make two nodes of a kind the same, in the order in which they are looked at. -/
def significant : Kind → List Field
  | .program | .block => [.statements]
  | .declaration | .update => [.name, .value]
  | .reference => [.name]
  | .function => [.name, .parameters, .block]
  | .returning => [.value]
  | .parameter => [.type]
  | .call => [.name, .args, .parent]
  | .argument => [.type]
  | .method => [.receiver, .name, .args]
  | .conditional => [.comparison, .block, .elifNodes, .elseBlock]
  | .loop => [.comparison, .block]
  | .concat => [.parent, .strings, .evaluated]
  | .binary | .comparison | .logical => [.left, .operator, .right]
  | .unary => [.operator, .left]
  | .integer | .double | .boolean | .string | .null => [.value, .line]
  | .plain | .breaking | .expression => []

mutual

def sameWithin (graph : Graph) : Nat → Value → Value → Except Failure Bool
  | 0, _, _ => .error (.fault .tooDeep)
  | depth + 1, left, right =>
      let sameItem (a b : Value) : Except Failure Bool :=
        if identical a b then .ok true else sameWithin graph depth a b
      match left, right with
      | .scalar a, .scalar b => .ok (a.same b)
      | .node a, .node b => sameNodes graph depth a b
      | .node a, _ => sameAsOther (graph.node a)
      | _, .node b => sameAsOther (graph.node b)
      | .list a, .list b | .tuple a, .tuple b =>
          if a.length = b.length then (a.zip b).allM fun (x, y) => sameItem x y else .ok false
      | .record a, .record b =>
          if a.length = b.length then
            a.allM fun (key, x) => match b.lookup key with
              | some y => sameItem x y
              | none => .ok false
          else .ok false
      | _, _ => .ok false
where
  /-- A node is never the same as a value that is no node; a bare expression cannot be compared. -/
  sameAsOther (node : Node) : Except Failure Bool :=
    if node.kind = .expression then .error (.fault .abstract) else .ok false

/-- Looks at the significant attributes in order and stops at the first that differs. -/
def sameNodes (graph : Graph) : Nat → NodeId → NodeId → Except Failure Bool
  | 0, _, _ => .error (.fault .tooDeep)
  | depth + 1, a, b =>
      let left := graph.node a
      let right := graph.node b
      if left.kind = .plain then
        if right.kind = .expression then .error (.fault .abstract) else .ok (a == b)
      else if left.kind = .expression then
        if right.kind.isOperation && right.kind != .expression then .ok false
        else .error (.fault .abstract)
      else if comparable left.kind right.kind then
        (significant left.kind).allM fun field =>
          match left.get? field, right.get? field with
          | some x, some y => sameWithin graph depth x y
          | none, _ => .error (.fault (.missingAttribute left.kind.name field.label))
          | _, none => .error (.fault (.missingAttribute right.kind.name field.label))
      else .ok false

end

def same (graph : Graph) (left right : Value) : Except Failure Bool :=
  graph.sameWithin walkDepth left right

end Graph

namespace Draft

def same (left right : Value) : Action Bool := do
  (← currentGraph).same left right

end Draft

end Scriptlet
