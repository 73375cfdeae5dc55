import Scriptlet.Proofs.Grammar.Tracking
import Scriptlet.Proofs.Grammar.Phrases

/-!
Trees of expressions in a graph of nodes.

A value shows a tree if its node and the nodes below it are those of the tree; the lines and the parents of
the nodes say nothing of it.  Nodes that are added later, and lines and parents that are set later, leave the
tree as it is.
-/

namespace Scriptlet

open Grammar

namespace Node

variable {field : Field}

def unplaced (node : Node) : Node :=
  { node with fields := node.fields.filter fun entry => !entry.1.isPlacing }

theorem unplaced_set (node : Node) (h : field.isPlacing) (value : Value) :
    (node.set field value).unplaced = node.unplaced := by
  have hfields : ∀ fields : List (Field × Value),
      (setField field value fields).filter (fun entry => !entry.1.isPlacing) =
        fields.filter fun entry => !entry.1.isPlacing := by
    intro fields
    induction fields with
    | nil => simp [setField, h]
    | cons entry rest ih =>
        rw [setField]
        split
        case isTrue heq => simp [heq, h]
        case isFalse => rw [List.filter_cons, List.filter_cons, ih]
  exact congrArg (Node.mk node.kind) (hfields node.fields)

theorem unplaced_set_of_not (node : Node) (h : ¬ field.isPlacing) (value : Value) :
    (node.set field value).unplaced = node.unplaced.set field value := by
  have hfields : ∀ fields : List (Field × Value),
      (setField field value fields).filter (fun entry => !entry.1.isPlacing) =
        setField field value (fields.filter fun entry => !entry.1.isPlacing) := by
    intro fields
    induction fields with
    | nil => simp [setField, h]
    | cons entry rest ih =>
        rw [setField]
        split
        case isTrue heq => simp [setField, heq, h]
        case isFalse hne =>
          rw [List.filter_cons, List.filter_cons, ih]
          split
          · rw [setField, if_neg hne]
          · rfl
  exact congrArg (Node.mk node.kind) (hfields node.fields)

@[reducible] def blankArgument : Node :=
  ⟨.argument, [(.name, .null), (.value, .null), (.cachedType, .null)]⟩

end Node

/-- The attributes of a literal. -/
def literalFields (kind : Kind) (value : Value) : List (Field × Value) :=
  (.value, value) :: (if kind = .string then [(.isTypeName, .null)] else []) ++
    [(.type, .text (literalType kind value))]

namespace Graph

variable {before middle after graph : Graph}
variable {id : NodeId} {kind : Kind} {entry : Field × Value} {rest : List (Field × Value)} {value : Value} {tree : Expr}

/-- All nodes are kept, apart from their lines and parents. -/
structure Retains (before after : Graph) : Prop where
  size_le : before.nodes.size ≤ after.nodes.size
  unplaced : ∀ id : Nat, id < before.nodes.size → (after.node id).unplaced = (before.node id).unplaced

namespace Retains

theorem refl (graph : Graph) : graph.Retains graph :=
  ⟨Nat.le_refl _, fun _ _ => rfl⟩

theorem trans (h : before.Retains middle) (h' : middle.Retains after) : before.Retains after :=
  ⟨h.size_le.trans h'.size_le,
    fun id hid => (h'.unplaced id (hid.trans_le h.size_le)).trans (h.unplaced id hid)⟩

theorem add (h : before.Retains after) (node : Node) : before.Retains (after.add node).2 := by
  refine ⟨h.size_le.trans (by simp [Graph.add]), fun id hid => ?_⟩
  rw [node_add, if_neg (hid.trans_le h.size_le).ne, h.unplaced id hid]

theorem setPlacing (h : before.Retains after) {field : Field} (hfield : field.isPlacing) (id : NodeId) (value : Value) :
    before.Retains (after.setField id field value) := by
  refine ⟨h.size_le.trans (by simp [setField]), fun other hother => ?_⟩
  rw [node_setField]
  split
  · rw [Node.unplaced_set _ hfield, h.unplaced other hother]
  · exact h.unplaced other hother

theorem setNew (h : before.Retains after) {id : NodeId} (hid : before.nodes.size ≤ id) (field : Field) (value : Value) :
    before.Retains (after.setField id field value) := by
  refine ⟨h.size_le.trans (by simp [setField]), fun other hother => ?_⟩
  have hne : other ≠ id := (hother.trans_le hid).ne
  rw [node_setField, if_neg fun hand => hne hand.1, h.unplaced other hother]

end Retains

/-- All nodes but arguments without a value are kept, apart from their lines and parents. -/
def Preserves (before after : Graph) : Prop :=
  ∀ id : Nat, id < before.nodes.size → (before.node id).unplaced ≠ Node.blankArgument →
    (after.node id).unplaced = (before.node id).unplaced

theorem Retains.preserves (h : before.Retains after) : before.Preserves after :=
  fun id hid _ => h.unplaced id hid

theorem preserves_setField (h : (graph.node id).unplaced = Node.blankArgument) (field : Field) (value : Value) :
    graph.Preserves (graph.setField id field value) := by
  intro other _ hother
  have hne : other ≠ id := fun heq => hother (heq ▸ h)
  rw [node_setField, if_neg fun hand => hne hand.1]

mutual

/-- The value is the root of nodes that make up the tree. -/
inductive Shows (graph : Graph) : Value → Expr → Prop
  | literal {id : NodeId} {kind : Kind} {value : Scalar}
      (h : (graph.node id).unplaced = ⟨kind, literalFields kind (.scalar value)⟩) :
      Shows graph (.node id) (.literal kind value)
  | reference {id : NodeId} {name : Scalar}
      (h : (graph.node id).unplaced =
        ⟨.reference, [(.name, .scalar name), (.value, .null), (.type, .null), (.scope, .null)]⟩) :
      Shows graph (.node id) (.reference name)
  | update {id : NodeId} {name : Scalar} {value : Value} {tree : Expr}
      (h : (graph.node id).unplaced = ⟨.update, [(.name, .scalar name), (.value, value)]⟩)
      (hvalue : Shows graph value tree) : Shows graph (.node id) (.update name tree)
  | call {id : NodeId} {name : Scalar} {items : List Value} {trees : List Expr}
      (h : (graph.node id).unplaced = ⟨.call, [(.name, .scalar name), (.args, .list items),
        (.arity, .int items.length), (.type, .null), (.transformed, .null)]⟩)
      (hitems : ShowsArguments graph items trees) : Shows graph (.node id) (.call name trees)
  | method {id : NodeId} {name : Scalar} {receiver : Value} {tree : Expr} {items : List Value} {trees : List Expr}
      (h : (graph.node id).unplaced = ⟨.method, [(.receiver, receiver), (.name, .scalar name),
        (.args, .list items), (.receiverType, .null)]⟩)
      (hreceiver : Shows graph receiver tree) (hitems : ShowsAll graph items trees) :
      Shows graph (.node id) (.method tree name trees)
  | unary {id : NodeId} {operator : Scalar} {operand : Value} {tree : Expr}
      (h : (graph.node id).unplaced = ⟨.unary, [(.operator, .scalar operator), (.left, operand),
        (.ownCachedType, .null), (.right, .null)]⟩)
      (hoperand : Shows graph operand tree) : Shows graph (.node id) (.unary operator tree)
  | binary {id : NodeId} {operator : Scalar} {left right : Value} {leftTree rightTree : Expr}
      (h : (graph.node id).unplaced = ⟨.binary, [(.left, left), (.operator, .scalar operator), (.right, right),
        (.cachedType, .null), (.transformed, .null)]⟩)
      (hleft : Shows graph left leftTree) (hright : Shows graph right rightTree) :
      Shows graph (.node id) (.binary leftTree operator rightTree)
  | comparison {id : NodeId} {operator : Scalar} {left right : Value} {leftTree rightTree : Expr}
      (h : (graph.node id).unplaced = ⟨.comparison, [(.left, left), (.operator, .scalar operator), (.right, right),
        (.ownCachedType, .null)]⟩)
      (hleft : Shows graph left leftTree) (hright : Shows graph right rightTree) :
      Shows graph (.node id) (.comparison leftTree operator rightTree)
  | logical {id : NodeId} {operator : Scalar} {left right : Value} {leftTree rightTree : Expr}
      (h : (graph.node id).unplaced = ⟨.logical, [(.left, left), (.operator, .scalar operator), (.right, right),
        (.ownCachedType, .null)]⟩)
      (hleft : Shows graph left leftTree) (hright : Shows graph right rightTree) :
      Shows graph (.node id) (.logical leftTree operator rightTree)

/-- The values show the trees one by one. -/
inductive ShowsAll (graph : Graph) : List Value → List Expr → Prop
  | nil : ShowsAll graph [] []
  | cons {value : Value} {tree : Expr} {values : List Value} {trees : List Expr} (h : Shows graph value tree)
      (hrest : ShowsAll graph values trees) : ShowsAll graph (value :: values) (tree :: trees)

/-- The values are arguments whose values show the trees one by one. -/
inductive ShowsArguments (graph : Graph) : List Value → List Expr → Prop
  | nil : ShowsArguments graph [] []
  | cons {id : NodeId} {value : Value} {tree : Expr} {values : List Value} {trees : List Expr}
      (hnode : (graph.node id).unplaced = ⟨.argument, [(.name, .null), (.value, value), (.cachedType, .null)]⟩)
      (h : Shows graph value tree) (hrest : ShowsArguments graph values trees) :
      ShowsArguments graph (.node id :: values) (tree :: trees)

end

theorem lt_size_of_unplaced (h : (graph.node id).unplaced = ⟨kind, entry :: rest⟩) : id < graph.nodes.size := by
  by_contra hge
  have hplain : (graph.node id).unplaced = ⟨.plain, []⟩ := by simp [node, Array.getD, hge, Node.unplaced]
  rw [hplain] at h
  simp at h

theorem Preserves.unplaced_eq (h : before.Preserves after) (hnode : (before.node id).unplaced = ⟨kind, entry :: rest⟩)
    (hne : Node.mk kind (entry :: rest) ≠ Node.blankArgument) : (after.node id).unplaced = ⟨kind, entry :: rest⟩ :=
  (h id (lt_size_of_unplaced hnode) (hnode ▸ hne)).trans hnode

theorem Shows.exists_node (h : graph.Shows value tree) : ∃ id, value = .node id := by
  cases h <;> exact ⟨_, rfl⟩

mutual

theorem Shows.kept (h : before.Preserves after) {value : Value} {tree : Expr} :
    before.Shows value tree → after.Shows value tree
  | .literal hnode => .literal (h.unplaced_eq hnode nofun)
  | .reference hnode => .reference (h.unplaced_eq hnode nofun)
  | .update hnode hvalue => .update (h.unplaced_eq hnode nofun) (hvalue.kept h)
  | .call hnode hitems => .call (h.unplaced_eq hnode nofun) (hitems.kept h)
  | .method hnode hreceiver hitems => .method (h.unplaced_eq hnode nofun) (hreceiver.kept h) (hitems.kept h)
  | .unary hnode hoperand => .unary (h.unplaced_eq hnode nofun) (hoperand.kept h)
  | .binary hnode hleft hright => .binary (h.unplaced_eq hnode nofun) (hleft.kept h) (hright.kept h)
  | .comparison hnode hleft hright => .comparison (h.unplaced_eq hnode nofun) (hleft.kept h) (hright.kept h)
  | .logical hnode hleft hright => .logical (h.unplaced_eq hnode nofun) (hleft.kept h) (hright.kept h)

theorem ShowsAll.kept (h : before.Preserves after) {values : List Value} {trees : List Expr} :
    before.ShowsAll values trees → after.ShowsAll values trees
  | .nil => .nil
  | .cons hvalue hrest => .cons (hvalue.kept h) (hrest.kept h)

theorem ShowsArguments.kept (h : before.Preserves after) {values : List Value} {trees : List Expr} :
    before.ShowsArguments values trees → after.ShowsArguments values trees
  | .nil => .nil
  | .cons hnode hvalue hrest => by
      obtain ⟨_, rfl⟩ := hvalue.exists_node
      exact .cons (h.unplaced_eq hnode nofun) (hvalue.kept h) (hrest.kept h)

end

theorem Shows.retained (hshows : before.Shows value tree) (h : before.Retains after) : after.Shows value tree :=
  hshows.kept h.preserves

end Graph

namespace Parse

variable {cursor middle after : Cursor} {place window : Window} {value left right : Value} {tree leftTree rightTree : Expr}
variable {items : List Value} {trees : List Expr}

/-- A cursor that stands at a given place and was reached without a message, with all nodes kept. -/
structure Arrives (cursor : Cursor) (window : Window) (after : Cursor) : Prop where
  window : after.window = window
  journal : after.journal = cursor.journal
  retains : cursor.graph.Retains after.graph

/-- A value is found that shows a tree. -/
structure Lands (cursor : Cursor) (window : Window) (value : Value) (tree : Expr) (after : Cursor) : Prop
    extends Arrives cursor window after where
  shows : after.graph.Shows value tree

theorem Arrives.refl (cursor : Cursor) : Arrives cursor cursor.window cursor :=
  ⟨rfl, rfl, .refl _⟩

theorem Arrives.trans (h : Arrives cursor place middle) (h' : Arrives middle window after) : Arrives cursor window after :=
  ⟨h'.window, h'.journal.trans h.journal, h.retains.trans h'.retains⟩

theorem Arrives.lands (h : Arrives cursor place middle) (h' : Lands middle window value tree after) :
    Lands cursor window value tree after :=
  ⟨h.trans h'.toArrives, h'.shows⟩

theorem Lands.onward (h : Lands cursor place value tree middle) (h' : Arrives middle window after) :
    Lands cursor window value tree after :=
  ⟨h.toArrives.trans h', h.shows.retained h'.retains⟩

theorem Lands.adopt (h : Lands cursor window value tree after) (id : NodeId) (parent : Value) :
    Lands cursor window value tree { after with graph := after.graph.setField id .parent parent } :=
  ⟨⟨h.window, h.journal, h.retains.setPlacing rfl id parent⟩,
    h.shows.retained ((Graph.Retains.refl _).setPlacing rfl id parent)⟩

/-- A new node, given what it shows in a graph that has it. -/
theorem Lands.of_add {kind : Kind} {fields : List (Field × Value)}
    (h : ∀ graph id, cursor.graph.Retains graph → (graph.node id).unplaced = Node.unplaced ⟨kind, fields⟩ →
      graph.Shows (.node id) tree) :
    Lands cursor cursor.window (.node cursor.graph.nodes.size) tree
      { cursor with graph := (cursor.graph.add ⟨kind, fields⟩).2 } := by
  refine ⟨⟨rfl, rfl, (Graph.Retains.refl _).add _⟩, h _ _ ((Graph.Retains.refl _).add _) ?_⟩
  rw [Graph.node_add, if_pos rfl]

/-! ### New nodes -/

/-- The action makes nodes that show the tree, and moves no further in the text. -/
def Makes (x : Parse Value) (cursor : Cursor) (tree : Expr) : Prop :=
  ∃ value after, x cursor = .ok value after ∧ Lands cursor cursor.window value tree after

namespace Makes

variable {x : Parse Value} {f : Value → Parse Value}

theorem lands (h : Makes x cursor tree) (hrun : x cursor = .ok value after) :
    Lands cursor cursor.window value tree after := by
  obtain ⟨_, _, heq, hlands⟩ := h
  obtain ⟨rfl, rfl⟩ := EStateM.Result.ok.inj (heq.symm.trans hrun)
  exact hlands

theorem bind (h : Makes x cursor leftTree)
    (hf : ∀ {left middle}, Lands cursor cursor.window left leftTree middle → Makes (f left) middle tree) :
    Makes (x >>= f) cursor tree := by
  obtain ⟨left, middle, hrun, hlands⟩ := h
  obtain ⟨value, after, hrest, hlast⟩ := hf hlands
  rw [hlands.window] at hlast
  exact ⟨value, after, bind_eq_ok.2 ⟨left, middle, hrun, hrest⟩, hlands.lands hlast⟩

theorem line_bind (h : ∀ line, Makes (f line) cursor tree) : Makes (line >>= f) cursor tree :=
  h _

end Makes

theorem newLiteral_makes (kind : Kind) (hkind : kind ≠ .string) (content : Scalar) (line : Value) :
    Makes (liftM (Draft.newLiteral kind (.scalar content) line)) cursor (.literal kind content) := by
  refine ⟨_, _, rfl, .of_add fun _ _ _ hnode => .literal ?_⟩
  rw [hnode, literalFields, if_neg hkind]
  rfl

theorem newString_makes (content : Scalar) (line : Value) :
    Makes (liftM (Draft.newString (.scalar content) .null line)) cursor (.literal .string content) :=
  ⟨_, _, rfl, .of_add fun _ _ _ hnode => .literal hnode⟩

theorem newReference_makes (name : Scalar) (line : Value) :
    Makes (liftM (Draft.newReference (.scalar name) line)) cursor (.reference name) :=
  ⟨_, _, rfl, .of_add fun _ _ _ hnode => .reference hnode⟩

theorem newUpdate_makes (h : cursor.graph.Shows value tree) (name : Scalar) (line : Value) :
    Makes (liftM (Draft.newUpdate (.scalar name) value line)) cursor (.update name tree) :=
  ⟨_, _, rfl, .of_add fun _ _ hretains hnode => .update hnode (h.retained hretains)⟩

theorem newUnary_makes (h : cursor.graph.Shows value tree) (operator : Scalar) (line : Value) :
    Makes (liftM (Draft.newUnary (.scalar operator) value line)) cursor (.unary operator tree) :=
  ⟨_, _, rfl, .of_add fun _ _ hretains hnode => .unary hnode (h.retained hretains)⟩

theorem newCall_makes (h : cursor.graph.ShowsArguments items trees) (name : Scalar) (parent line : Value) :
    Makes (liftM (Draft.newCall (.scalar name) (.list items) parent line)) cursor (.call name trees) :=
  ⟨_, _, rfl, .of_add fun _ _ hretains hnode => .call hnode (h.kept hretains.preserves)⟩

theorem newMethod_makes (h : cursor.graph.Shows value tree) (hitems : cursor.graph.ShowsAll items trees) (name : Scalar)
    (line : Value) :
    Makes (liftM (Draft.newMethod value (.scalar name) (.list items) line)) cursor (.method tree name trees) :=
  ⟨_, _, rfl, .of_add fun _ _ hretains hnode => .method hnode (h.retained hretains) (hitems.kept hretains.preserves)⟩

theorem stepNode_makes (name : Scalar) (operator : String) :
    Makes (stepNode (.scalar name) operator) cursor (.step name operator) := by
  refine .line_bind fun _ => (newReference_makes name _).bind fun hreference => ?_
  refine (newLiteral_makes .integer nofun (.int 1) .null).bind fun hone => ?_
  have hsum : ∀ parent line, Makes (liftM (Draft.newBinary _ (.text operator) _ parent line)) _ _ := fun _ _ =>
    ⟨_, _, rfl, .of_add fun _ _ hretains hnode =>
      .binary hnode ((hreference.shows.retained hone.retains).retained hretains) (hone.shows.retained hretains)⟩
  exact (hsum .null .null).bind fun hlands => .line_bind fun _ => newUpdate_makes hlands.shows name _

section Operations

variable (hleft : cursor.graph.Shows left leftTree) (hright : cursor.graph.Shows right rightTree) (operator : Scalar)

include hleft hright

theorem joinLogical_makes : Makes (joinLogical left (.scalar operator) right) cursor (.logical leftTree operator rightTree) :=
  ⟨_, _, rfl, .of_add fun _ _ hretains hnode => .logical hnode (hleft.retained hretains) (hright.retained hretains)⟩

theorem joinProduct_makes : Makes (joinProduct left (.scalar operator) right) cursor (.binary leftTree operator rightTree) :=
  ⟨_, _, rfl, .of_add fun _ _ hretains hnode => .binary hnode (hleft.retained hretains) (hright.retained hretains)⟩

theorem joinComparison_makes :
    Makes (joinComparison left (.scalar operator) right) cursor (.comparison leftTree operator rightTree) := by
  obtain ⟨leftId, rfl⟩ := hleft.exists_node
  obtain ⟨rightId, rfl⟩ := hright.exists_node
  refine ⟨_, _, rfl, .adopt (.adopt (.of_add ?_) leftId _) rightId _⟩
  exact fun _ _ hretains hnode => .comparison hnode (hleft.retained hretains) (hright.retained hretains)

theorem joinSum_makes : Makes (joinSum left (.scalar operator) right) cursor (.binary leftTree operator rightTree) := by
  obtain ⟨leftId, rfl⟩ := hleft.exists_node
  obtain ⟨rightId, rfl⟩ := hright.exists_node
  refine ⟨_, _, rfl, .adopt (.adopt (.of_add ?_) leftId _) rightId _⟩
  exact fun _ _ hretains hnode => .binary hnode (hleft.retained hretains) (hright.retained hretains)

end Operations

theorem display_scalar (content : Scalar) (cursor : Cursor) :
    (liftM (Draft.display (.scalar content)) : Parse String) cursor = .ok content.display cursor := rfl

/-! ### Arguments -/

/-- The cursor with a new argument in focus, where the value of the argument is read. -/
def argumentStart (cursor : Cursor) : Cursor :=
  { cursor with
    graph := (cursor.graph.add ⟨.argument, [(.name, .null), (.value, .null), (.parent, .null), (.cachedType, .null)]⟩).2
    focus := .node cursor.graph.nodes.size }

theorem argumentStart_arrives (cursor : Cursor) : Arrives cursor cursor.window (argumentStart cursor) :=
  ⟨rfl, rfl, (Graph.Retains.refl _).add _⟩

/-- The value is put into the argument that waits for it. -/
theorem callArgument_fills (hlands : Lands (argumentStart cursor) window value tree middle) :
    ∃ item after, Arrives cursor window after ∧ after.graph.ShowsArguments [item] [tree] ∧
      ∀ expression, expression (argumentStart cursor) = .ok value middle → callArgument expression cursor = .ok [item] after := by
  obtain ⟨id, rfl⟩ := hlands.shows.exists_node
  let argument : NodeId := cursor.graph.nodes.size
  let filled := middle.graph.setField argument .value (.node id)
  have hblank : (middle.graph.node argument).unplaced = Node.blankArgument := by
    rw [hlands.retains.unplaced argument (by simp [argument, argumentStart, Graph.add])]
    show ((cursor.graph.add _).2.node _).unplaced = _
    rw [Graph.node_add, if_pos rfl]
    rfl
  have hfilled : cursor.graph.Retains filled :=
    ((argumentStart_arrives cursor).retains.trans hlands.retains).setNew (Nat.le_refl _) _ _
  have hitems : filled.ShowsArguments [.node argument] [tree] := by
    refine .cons ?_ (hlands.shows.kept (Graph.preserves_setField hblank _ _)) .nil
    rw [Graph.node_setField, if_pos ⟨rfl, Graph.lt_size_of_unplaced hblank⟩, Node.unplaced_set_of_not _ (by decide), hblank]
    rfl
  have hadopted := (Graph.Retains.refl filled).setPlacing (show Field.parent.isPlacing from rfl) id (.node argument)
  let next : Cursor := { middle with graph := filled }
  have hset : (liftM (Draft.setField (.node argument) .value (.node id)) : Parse Unit) middle = .ok () next := rfl
  have hhas : (liftM (Draft.hasField (.node id) .parent) : Parse Bool) next =
    .ok (filled.fieldOf? (.node id) .parent).isSome next := rfl
  have hopen : ∀ expression, expression (argumentStart cursor) = .ok (.node id) middle → callArgument expression cursor =
      (_ : Parse (List Value)) middle := fun expression hrun => by
    show EStateM.bind expression _ (argumentStart cursor) = _
    rw [EStateM.bind, hrun]
  have hnext : Arrives cursor window next := ⟨hlands.window, hlands.journal, hfilled⟩
  -- The argument becomes the parent of its value if that has none.
  cases hparent : filled.fieldOf? (.node id) .parent with
  | none =>
      rw [hparent] at hhas
      refine ⟨_, next, hnext, hitems, fun expression hrun => (hopen expression hrun).trans ?_⟩
      exact bind_eq_ok.2 ⟨_, _, hset, bind_eq_ok.2 ⟨_, _, hhas, rfl⟩⟩
  | some parent =>
      rw [hparent] at hhas
      have hget : (liftM (Draft.getField (.node id) .parent) : Parse Value) next = .ok parent next :=
        lift_getField_eq_ok.2 ⟨hparent, rfl⟩
      cases hnull : parent.isNull with
      | true =>
          refine ⟨_, { next with graph := filled.setField id .parent (.node argument) },
            ⟨hlands.window, hlands.journal, hfilled.trans hadopted⟩, hitems.kept hadopted.preserves,
            fun expression hrun => (hopen expression hrun).trans ?_⟩
          refine bind_eq_ok.2 ⟨_, _, hset, bind_eq_ok.2 ⟨_, _, hhas, bind_eq_ok.2 ⟨_, _, hget, ?_⟩⟩⟩
          rw [if_pos hnull]
          rfl
      | false =>
          refine ⟨_, next, hnext, hitems, fun expression hrun => (hopen expression hrun).trans ?_⟩
          refine bind_eq_ok.2 ⟨_, _, hset, bind_eq_ok.2 ⟨_, _, hhas, bind_eq_ok.2 ⟨_, _, hget, ?_⟩⟩⟩
          rw [if_neg (Bool.eq_false_iff.1 hnull)]
          rfl

end Parse

end Scriptlet
