import Scriptlet.Journal
import Scriptlet.Node.Basic

/-!
Graphs of nodes.

A program is a graph and not a tree: one expression can belong to several declarations, a node knows
its parent, and a variable reference knows the value last assigned to the variable.  Nodes are added
and their attributes set, and no node is ever removed.

A `Draft` is a graph together with the journal of what has been said about it.
-/

namespace Scriptlet

structure Graph where
  nodes : Array Node := #[]
  deriving Inhabited

namespace Graph

def node (graph : Graph) (id : NodeId) : Node :=
  graph.nodes.getD id ⟨.plain, []⟩

def add (graph : Graph) (node : Node) : NodeId × Graph :=
  (graph.nodes.size, { graph with nodes := graph.nodes.push node })

def setField (graph : Graph) (id : NodeId) (field : Field) (value : Value) : Graph :=
  { graph with nodes := graph.nodes.modify id fun node => node.set field value }

def kindOf? (graph : Graph) : Value → Option Kind
  | .node id => some (graph.node id).kind
  | _ => none

def isKind (graph : Graph) (kind : Kind) (value : Value) : Bool :=
  graph.kindOf? value == some kind

def isLiteral (graph : Graph) (value : Value) : Bool :=
  (graph.kindOf? value).any Kind.isLiteral

def isOperation (graph : Graph) (value : Value) : Bool :=
  (graph.kindOf? value).any Kind.isOperation

def sortName (graph : Graph) : Value → String
  | .scalar value => value.sortName
  | .node id => (graph.node id).kind.name
  | .list _ => "list"
  | .tuple _ => "tuple"
  | .record _ => "dict"

def fieldOf? (graph : Graph) (value : Value) (field : Field) : Option Value :=
  match value with
  | .node id => (graph.node id).get? field
  | _ => none

def missing (graph : Graph) (value : Value) (label : String) : Failure :=
  .fault (.missingAttribute (graph.sortName value) label)

end Graph

structure Draft where
  graph : Graph := {}
  journal : Journal := {}
  deriving Inhabited

/-- A state that carries a draft along. -/
class Carries (σ : Type) where
  draft : σ → Draft
  withDraft : σ → Draft → σ

namespace Draft

abbrev Action := EStateM Failure Draft

def onJournal {α : Type} (action : Journal.Writer α) : Action α :=
  fun draft => match action draft.journal with
    | .ok value journal => .ok value { draft with journal }
    | .error failure journal => .error failure { draft with journal }

instance : MonadLift Journal.Writer Action where
  monadLift := onJournal

/-- An action on the draft that a state carries along. -/
def onDraft {σ α : Type} [Carries σ] (action : Action α) : EStateM Failure σ α :=
  fun state => match action (Carries.draft state) with
    | .ok value draft => .ok value (Carries.withDraft state draft)
    | .error failure draft => .error failure (Carries.withDraft state draft)

instance (priority := low) {σ : Type} [Carries σ] : MonadLift Action (EStateM Failure σ) where
  monadLift := onDraft

instance : MonadLift (Except Failure) Action where
  monadLift
    | .ok value => pure value
    | .error failure => throw failure

def currentGraph : Action Graph :=
  return (← get).graph

def addNode (kind : Kind) (fields : List (Field × Value)) : Action Value :=
  modifyGet fun draft =>
    let (id, graph) := draft.graph.add ⟨kind, fields⟩
    (.node id, { draft with graph })

def getField (value : Value) (field : Field) : Action Value := do
  let graph ← currentGraph
  match graph.fieldOf? value field with
  | some found => return found
  | none => throw (graph.missing value field.label)

def hasField (value : Value) (field : Field) : Action Bool :=
  return ((← currentGraph).fieldOf? value field).isSome

/-- Sets an attribute of a node; other values have none that could be set. -/
def setField (value : Value) (field : Field) (content : Value) : Action Unit := do
  match value with
  | .node id => modify fun draft => { draft with graph := draft.graph.setField id field content }
  | other => throw ((← currentGraph).missing other field.label)

def isKind (kind : Kind) (value : Value) : Action Bool :=
  return (← currentGraph).isKind kind value

def itemsOf (value : Value) : Action (List Value) := do
  match value with
  | .list items | .tuple items => return items
  | .record entries => return entries.map fun entry => .text entry.1
  | .text s => return s.toList.map fun c => .text c.toString
  | other => fail (.notIterable ((← currentGraph).sortName other))

def pairOf (value : Value) : Action (Value × Value) := do
  match value with
  | .node _ | .null | .bool _ | .int _ | .double _ =>
      fail (.notUnpackable ((← currentGraph).sortName value))
  | collection => match ← itemsOf collection with
      | [first, second] => return (first, second)
      | items => fail (.wrongArity 2 items.length)

def lengthOf (value : Value) : Action Nat := do
  match value with
  | .list items | .tuple items => return items.length
  | .record entries => return entries.length
  | .text s => return s.length
  | other => fail (.noLength ((← currentGraph).sortName other))

def printLine (text : String) : Action Unit :=
  Journal.printLine text

end Draft

/-- How deeply a walk through a graph may nest. -/
def walkDepth : Nat := 3000

end Scriptlet
