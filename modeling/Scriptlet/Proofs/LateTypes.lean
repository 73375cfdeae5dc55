import Scriptlet.Proofs.TypeNotes

/-!
Types that become known late.

Operations keep a note of their type as soon as it is known, and the note is never revised.  The types of names and
calls become known one after the other, with questions in between.  A type that is known once is not changed by what
becomes known later, so every answer is what the rules say of the leaves at that moment, as if no notes were kept.
-/

namespace Scriptlet

open Draft (invalidType)

/-! ### The rules -/

section Rules

variable {operator left right left' right' : Value} {type : String}

/-- A text decides on a sum, whatever the other operand is. -/
theorem binaryType?_string (hplus : operator.isText "+" = true)
    (hstring : left.isText TypeName.string = true ∨ right.isText TypeName.string = true) :
    binaryType? operator left right = some TypeName.string := by
  have hnumeric : isNumeric (.text TypeName.string) = false := by decide
  obtain rfl := isText_iff.1 hplus
  rw [binaryType?, if_pos (by decide), if_neg, if_pos (by simpa [hplus] using hstring)]
  rcases hstring with hleft | hright
  · obtain rfl := isText_iff.1 hleft
    simp [hnumeric]
  · obtain rfl := isText_iff.1 hright
    simp [hnumeric]

/-- Only a sum with a text is of a known type while an operand is not. -/
theorem binaryType?_unknown (h : binaryType? operator left right = some type)
    (hunknown : left = invalidType ∨ right = invalidType) : operator.isText "+" = true ∧ type = TypeName.string ∧
      (left.isText TypeName.string = true ∨ right.isText TypeName.string = true) := by
  have hnumeric : (isNumeric left && isNumeric right) = false := by
    have hinvalid : isNumeric invalidType = false := by decide
    rcases hunknown with rfl | rfl <;> simp [hinvalid]
  simp only [binaryType?, hnumeric, Bool.false_eq_true, if_false] at h
  split_ifs at h with harithmetic hstring
  cases h
  simpa using hstring

theorem signType?_unknown : signType? operator invalidType = none := by
  unfold signType?
  split
  · rfl
  · split <;> rfl

/-- Where the type of an operation is known, it does not matter what becomes of an operand of unknown type. -/
theorem operationType?_late {kind : Kind} (hleft : left ≠ invalidType → left' = left)
    (hright : right ≠ invalidType → right' = right) (h : operationType? kind operator left right = some type) :
    operationType? kind operator left' right' = some type := by
  by_cases hknown : left ≠ invalidType ∧ right ≠ invalidType
  · rwa [hleft hknown.1, hright hknown.2]
  have hunknown : left = invalidType ∨ right = invalidType := by tauto
  cases kind
  case binary =>
    obtain ⟨hplus, rfl, hstring⟩ := binaryType?_unknown h hunknown
    refine binaryType?_string hplus (hstring.imp (fun hl => ?_) fun hr => ?_)
    · rwa [hleft (by rintro rfl; cases hl)]
    · rwa [hright (by rintro rfl; cases hr)]
  case unary =>
    have hne : left ≠ invalidType := by
      rintro rfl
      rw [operationType?, signType?_unknown] at h
      cases h
    rwa [hleft hne]
  case comparison =>
    have hinvalid : invalidType.isOneOf comparableTypes = false := by decide
    rcases hunknown with rfl | rfl <;> simp [operationType?, hinvalid] at h
  case logical =>
    have hinvalid : invalidType.isText TypeName.boolean = false := by decide
    rcases hunknown with rfl | rfl <;> simp [operationType?, hinvalid] at h
  all_goals cases h

end Rules

namespace Node

/-- The type that the rules give an operation for the types of its operands. -/
def ruledType (node : Node) (left right : Value) : Value :=
  settledType (operationType? node.kind (node.get .operator) left right)

theorem ruledType_late {node : Node} {left right left' right' : Value} (hleft : left ≠ invalidType → left' = left)
    (hright : right ≠ invalidType → right' = right) (h : node.ruledType left right ≠ invalidType) :
    node.ruledType left' right' = node.ruledType left right := by
  unfold ruledType at h ⊢
  cases htype : operationType? node.kind (node.get .operator) left right with
  | none =>
      rw [htype] at h
      exact absurd rfl h
  | some type => rw [operationType?_late hleft hright htype]

/-- The type of a leaf: literals are of the type of their value, names and calls of the type that they were given. -/
def leafType (node : Node) : Value :=
  if node.kind.isLiteral then .text (literalType node.kind (node.get .value)) else typeOrInvalid (node.get .type)

/-- Leaves whose type is found out later. -/
def isLate (node : Node) : Bool :=
  node.kind = .reference || node.kind = .call

theorem typeSource_of_leaf {node : Node} (h : node.kind.isLiteral || node.isLate) : node.typeSource = .given node.leafType := by
  unfold typeSource leafType
  unfold isLate at h
  cases hkind : node.kind <;> rw [hkind] at h
  case reference | call | integer | double | boolean | string | null => rfl
  all_goals cases h

end Node

/-! ### Trees of operations -/

/-- A tree of operations, by the places of its nodes in a graph. -/
inductive OperationTree where
  | leaf (id : NodeId)
  | sign (id : NodeId) (operand : OperationTree)
  | pair (id : NodeId) (left right : OperationTree)

namespace OperationTree

def root : OperationTree → NodeId
  | leaf id | sign id _ | pair id _ _ => id

def height : OperationTree → Nat
  | leaf _ => 0
  | sign _ operand => operand.height + 1
  | pair _ left right => max left.height right.height + 1

/-- The tree itself and all trees in it. -/
def parts : OperationTree → List OperationTree
  | leaf id => [leaf id]
  | sign id operand => sign id operand :: operand.parts
  | pair id left right => pair id left right :: (left.parts ++ right.parts)

/-- The node at the top is what the tree says. -/
def Fits (graph : Graph) : OperationTree → Prop
  | leaf id => (graph.node id).kind.isLiteral || (graph.node id).isLate
  | sign id operand => (graph.node id).kind = .unary ∧ (graph.node id).get .left = .node operand.root
  | pair id left right => (graph.node id).kind ∈ [Kind.binary, .comparison, .logical] ∧
      (graph.node id).get .left = .node left.root ∧ (graph.node id).get .right = .node right.root

/-- The type of a tree by the rules, from the types of its leaves. -/
def ruled (graph : Graph) : OperationTree → Value
  | leaf id => (graph.node id).leafType
  | sign id operand => (graph.node id).ruledType (operand.ruled graph) .null
  | pair id left right => (graph.node id).ruledType (left.ruled graph) (right.ruled graph)

/-- An operation has no note, or it notes the type that it has. -/
def Kept (graph : Graph) (tree : OperationTree) : Prop :=
  (graph.node tree.root).kind.isNoted → (graph.node tree.root).typeSource = .operands ∨
    (graph.node tree.root).typeSource = .given (tree.ruled graph) ∧ tree.ruled graph ≠ invalidType

/-- All notes in a tree of operations are right. -/
def Right (graph : Graph) (tree : OperationTree) : Prop :=
  ∀ part ∈ tree.parts, part.Fits graph ∧ part.Kept graph

variable {graph changed : Graph} {tree other inner : OperationTree} {depth : Nat}

theorem mem_parts_self (tree : OperationTree) : tree ∈ tree.parts := by
  cases tree <;> exact List.mem_cons_self

theorem mem_parts_trans (hother : other ∈ tree.parts) (hinner : inner ∈ other.parts) : inner ∈ tree.parts := by
  induction tree with
  | leaf id =>
      obtain rfl := List.mem_singleton.1 hother
      exact hinner
  | sign id operand ih =>
      rcases List.mem_cons.1 hother with rfl | hoperand
      · exact hinner
      · exact List.mem_cons_of_mem _ (ih hoperand)
  | pair id left right ihLeft ihRight =>
      rcases List.mem_cons.1 hother with rfl | hoperand
      · exact hinner
      · refine List.mem_cons_of_mem _ (List.mem_append.2 ?_)
        exact (List.mem_append.1 hoperand).imp ihLeft ihRight

namespace Right

theorem part (h : tree.Right graph) (hother : other ∈ tree.parts) : other.Right graph :=
  fun _ hinner => h _ (mem_parts_trans hother hinner)

theorem operand {id : NodeId} {operand : OperationTree} (h : (sign id operand).Right graph) : operand.Right graph :=
  h.part (List.mem_cons_of_mem _ operand.mem_parts_self)

theorem operands {id : NodeId} {left right : OperationTree} (h : (pair id left right).Right graph) :
    left.Right graph ∧ right.Right graph :=
  ⟨h.part (List.mem_cons_of_mem _ (List.mem_append_left _ left.mem_parts_self)),
    h.part (List.mem_cons_of_mem _ (List.mem_append_right _ right.mem_parts_self))⟩

end Right

/-! ### Answers -/

/-- The type of an operation is found in its note or from its operands, and it is the same. -/
theorem typeAt_of_kept {left right : Value} (hnoted : (graph.node tree.root).kind.isNoted) (hkept : tree.Kept graph)
    (hruled : tree.ruled graph = (graph.node tree.root).ruledType left right)
    (hleft : graph.typeAt depth ((graph.node tree.root).get .left) = some left)
    (hright : (graph.node tree.root).rightType (graph.typeAt depth) = some right) :
    graph.typeAt (depth + 1) (.node tree.root) = some (tree.ruled graph) := by
  rcases hkept hnoted with hoperands | ⟨hgiven, -⟩
  · rw [Graph.typeAt_node, hoperands, hruled, Node.operandTypes_eq_some.2 ⟨hleft, hright⟩]
    rfl
  · exact Graph.typeAt_of_given hgiven

/-- With right notes a type is found, and it is the one that the rules give. -/
theorem Right.typeAt (h : tree.Right graph) (hdepth : tree.height < depth) :
    graph.typeAt depth (.node tree.root) = some (tree.ruled graph) := by
  induction tree generalizing depth with
  | leaf id =>
      obtain ⟨depth, rfl⟩ : ∃ rest, depth = rest + 1 := ⟨depth - 1, by omega⟩
      exact Graph.typeAt_of_given (Node.typeSource_of_leaf (h _ (mem_parts_self _)).1)
  | sign id operand ih =>
      obtain ⟨depth, rfl⟩ : ∃ rest, depth = rest + 1 := ⟨depth - 1, by omega⟩
      obtain ⟨⟨hkind, hleft⟩, hkept⟩ := h _ (mem_parts_self _)
      refine typeAt_of_kept (by rw [root, hkind]; rfl) hkept rfl ?_ (if_pos hkind)
      rw [root, hleft]
      exact ih h.operand (by rw [height] at hdepth; omega)
  | pair id left right ihLeft ihRight =>
      obtain ⟨depth, rfl⟩ : ∃ rest, depth = rest + 1 := ⟨depth - 1, by omega⟩
      obtain ⟨⟨hkind, hleft, hright⟩, hkept⟩ := h _ (mem_parts_self _)
      rw [height] at hdepth
      have hbinary : (graph.node id).kind ≠ .unary := fun heq => by simp [heq] at hkind
      refine typeAt_of_kept ?_ hkept rfl ?_ ?_
      · simp only [List.mem_cons, List.not_mem_nil, or_false] at hkind
        rcases hkind with hkind | hkind | hkind <;> rw [root, hkind] <;> rfl
      · rw [root, hleft]
        exact ihLeft h.operands.1 (by omega)
      · rw [root, Node.rightType, if_neg hbinary, hright]
        exact ihRight h.operands.2 (by omega)

/-- Operations are of the same kinds, with the same operators and operands. -/
structure Alike (graph changed : Graph) : Prop where
  kind : ∀ id, (changed.node id).kind = (graph.node id).kind
  get : ∀ id, ∀ field ∈ [Field.operator, .left, .right], (changed.node id).get field = (graph.node id).get field

namespace Alike

theorem ruledType (h : Alike graph changed) (id : NodeId) : (changed.node id).ruledType = (graph.node id).ruledType := by
  unfold Node.ruledType
  rw [h.kind id, h.get id .operator (by decide)]

theorem fits (h : Alike graph changed) (hfits : tree.Fits graph) : tree.Fits changed := by
  cases tree <;> simp only [Fits, Node.isLate, h.kind, h.get _ .left (by decide), h.get _ .right (by decide)] <;> exact hfits

end Alike

/-! ### Questions -/

theorem alike_of_noted (h : graph.Noted changed) : Alike graph changed := by
  refine ⟨h.kind, fun id field hfield => h.get id ?_ ?_⟩ <;> rintro rfl <;> simp at hfield

/-- The rules do not look at notes. -/
theorem ruled_noted (h : graph.Noted changed) (tree : OperationTree) : tree.ruled changed = tree.ruled graph := by
  induction tree with
  | leaf id =>
      rw [ruled, ruled, Node.leafType, Node.leafType, h.kind id, h.get id (by decide : Field.value ≠ _) (by decide),
        h.get id (by decide : Field.type ≠ _) (by decide)]
  | sign id operand ih => rw [ruled, ruled, (alike_of_noted h).ruledType, ih]
  | pair id left right ihLeft ihRight => rw [ruled, ruled, (alike_of_noted h).ruledType, ihLeft, ihRight]

theorem Right.noted (h : tree.Right graph) (hnoted : graph.Noted changed) : tree.Right changed := by
  intro part hpart
  obtain ⟨hfits, hkept⟩ := h part hpart
  refine ⟨(alike_of_noted hnoted).fits hfits, fun hkind => ?_⟩
  rw [hnoted.kind] at hkind
  rw [ruled_noted hnoted]
  rcases hnoted.source part.root with hsame | ⟨-, type, hvalid, hgiven, htype⟩
  · rw [hsame]
    exact hkept hkind
  · have hruled : .text type = part.ruled graph := htype.unique ⟨_, (h.part hpart).typeAt (Nat.lt_succ_self _)⟩
    rw [hgiven, ← hruled]
    exact .inr ⟨rfl, fun heq => hvalid (by simpa [invalidType] using heq)⟩

/-! ### Late types -/

section Resolving

variable {id : NodeId} {type : Value}

theorem get_setType (place : NodeId) {field : Field} (hfield : field ≠ .type) :
    ((graph.setField id .type type).node place).get field = (graph.node place).get field := by
  rw [Node.get, Graph.get?_setField_of_ne graph type (.inr hfield), ← Node.get]

theorem alike_setType : Alike graph (graph.setField id .type type) := by
  refine ⟨fun place => Graph.kind_setField .., fun place field hfield => get_setType place ?_⟩
  rintro rfl
  simp at hfield

/-- A type that is known stays when a leaf of unknown type gets one. -/
theorem ruled_setType (hlate : (graph.node id).isLate) (hnull : (graph.node id).get .type = .null)
    (hknown : tree.ruled graph ≠ invalidType) : tree.ruled (graph.setField id .type type) = tree.ruled graph := by
  induction tree with
  | leaf place =>
      have hne : place ≠ id := by
        rintro rfl
        refine hknown ?_
        rw [ruled, Node.leafType, hnull, if_neg]
        · rfl
        · unfold Node.isLate at hlate
          cases hkind : (graph.node place).kind <;> simp [hkind, Kind.isLiteral] at hlate ⊢
      rw [ruled, ruled, Graph.node_setField, if_neg fun h => hne h.1]
  | sign place operand ih =>
      rw [ruled] at hknown
      rw [ruled, ruled, alike_setType.ruledType]
      exact Node.ruledType_late ih (fun _ => rfl) hknown
  | pair place left right ihLeft ihRight =>
      rw [ruled] at hknown
      rw [ruled, ruled, alike_setType.ruledType]
      exact Node.ruledType_late ihLeft ihRight hknown

theorem Right.setType (h : tree.Right graph) (hlate : (graph.node id).isLate) (hnull : (graph.node id).get .type = .null) :
    tree.Right (graph.setField id .type type) := by
  intro part hpart
  obtain ⟨hfits, hkept⟩ := h part hpart
  refine ⟨alike_setType.fits hfits, fun hkind => ?_⟩
  have hsource : ((graph.setField id .type type).node part.root).typeSource = (graph.node part.root).typeSource := by
    rw [Node.typeSource_of_isNoted hkind]
    rw [Graph.kind_setField] at hkind ⊢
    rw [Node.typeSource_of_isNoted hkind, Node.noteOr, Node.noteOr, get_setType]
    unfold Kind.noteField
    split <;> decide
  rw [Graph.kind_setField] at hkind
  rw [hsource]
  refine (hkept hkind).imp_right fun hgiven => ?_
  rw [ruled_setType hlate hnull hgiven.2]
  exact hgiven

end Resolving

end OperationTree

namespace Draft

/-- What can happen to a tree of operations: a node is asked for its type, or a leaf of unknown type gets one. -/
inductive Proceeds (tree : OperationTree) : Draft → Draft → Prop
  | start (draft : Draft) : Proceeds tree draft draft
  | ask {draft middle later : Draft} {part : OperationTree} : Proceeds tree draft middle → part ∈ tree.parts →
      ((∃ type, typeOf (.node part.root) middle = .ok type later) ∨
        ∃ failure, typeOf (.node part.root) middle = .error failure later) → Proceeds tree draft later
  | resolve {draft middle later : Draft} {id : NodeId} (type : String) : Proceeds tree draft middle →
      .leaf id ∈ tree.parts → (middle.graph.node id).isLate → (middle.graph.node id).get .type = .null →
      setField (.node id) .type (.text type) middle = .ok () later → Proceeds tree draft later

variable {tree part : OperationTree} {draft later : Draft}

theorem right_of_proceeds (h : tree.Right draft.graph) (hproceeds : Proceeds tree draft later) : tree.Right later.graph := by
  induction hproceeds with
  | start => exact h
  | ask _ _ hask ih =>
      refine ih.noted ?_
      rcases hask with ⟨type, hask⟩ | ⟨failure, hask⟩
      · exact (Obeys.step hask : noting.step _ _).1
      · exact (Obeys.stop hask : noting.stop _ _ _).2.1
  | resolve type _ _ hlate hnull hset ih =>
      cases hset
      exact ih.setType hlate hnull

/-- Every answer is the type that the rules give for the types of the leaves at that moment, whatever was asked and
whatever became known before.  There is no answer only for trees that are deeper than types are looked for. -/
theorem typeOf_is_transparent (hfits : ∀ part ∈ tree.parts, part.Fits draft.graph)
    (hunnoted : ∀ part ∈ tree.parts, (draft.graph.node part.root).kind.isNoted →
      (draft.graph.node part.root).get (draft.graph.node part.root).kind.noteField = .null)
    (hproceeds : Proceeds tree draft later) (hpart : part ∈ tree.parts) :
    match typeOf (.node part.root) later with
      | .ok type _ => type = part.ruled later.graph
      | .error _ _ => walkDepth ≤ part.height := by
  have hstart : tree.Right draft.graph := fun part hpart => ⟨hfits part hpart, fun hkind => .inl (by
    rw [Node.typeSource_of_isNoted hkind, Node.noteOr, hunnoted part hpart hkind]
    rfl)⟩
  have hright := (right_of_proceeds hstart hproceeds).part hpart
  cases htype : typeOf (.node part.root) later with
  | ok type last =>
      have hanswers := answers_typeWithin walkDepth (.node part.root) later
      rw [show typeWithin walkDepth (.node part.root) later = .ok type last from htype] at hanswers
      exact hanswers.2.2.1.unique ⟨_, hright.typeAt (Nat.lt_succ_self _)⟩
  | error failure last =>
      by_contra hlt
      obtain ⟨last', hok⟩ := typeWithin_of_typeAt (hright.typeAt (Nat.lt_of_not_le hlt))
      rw [show typeWithin walkDepth (.node part.root) later = .error failure last from htype] at hok
      cases hok

/-- A text and a name of unknown type, joined and compared with a call of unknown type. -/
def unresolved : Draft where
  graph.nodes := #[⟨.string, [(.value, .text "a")]⟩, ⟨.reference, [(.type, .null)]⟩,
    ⟨.binary, [(.left, .node 0), (.operator, .text "+"), (.right, .node 1), (.cachedType, .null)]⟩, ⟨.call, [(.type, .null)]⟩,
    ⟨.comparison, [(.left, .node 2), (.operator, .text "=="), (.right, .node 3), (.type, .null)]⟩]

def sampleTree : OperationTree :=
  .pair 4 (.pair 2 (.leaf 0) (.leaf 1)) (.leaf 3)

/-- The first question is too early, and is answered again when the type of the call is known. -/
theorem typeOf_is_transparent_sample : ∃ asked later last, typeOf (.node 4) unresolved = .ok invalidType asked ∧
    setField (.node 3) .type (.text TypeName.string) asked = .ok () later ∧
    typeOf (.node 4) later = .ok (.text TypeName.boolean) last ∧ sampleTree.ruled later.graph = .text TypeName.boolean := by
  obtain ⟨asked, hasked⟩ : ∃ asked, typeOf (.node 4) unresolved = .ok invalidType asked := ⟨_, rfl⟩
  obtain ⟨later, hlater⟩ : ∃ later, setField (.node 3) .type (.text TypeName.string) asked = .ok () later := ⟨_, rfl⟩
  obtain ⟨last, hlast⟩ : ∃ last, typeOf (.node 4) later = .ok (.text TypeName.boolean) last := by
    cases hasked
    cases hlater
    exact ⟨_, rfl⟩
  have hself : sampleTree ∈ sampleTree.parts := sampleTree.mem_parts_self
  have hcall : .leaf 3 ∈ sampleTree.parts := by simp [sampleTree, OperationTree.parts]
  have hproceeds : Proceeds sampleTree unresolved later := by
    refine .resolve TypeName.string (.ask (.start _) hself (.inl ⟨_, hasked⟩)) hcall ?_ ?_ hlater <;> cases hasked <;> rfl
  have hfits : ∀ part ∈ sampleTree.parts, part.Fits unresolved.graph := by
    simp only [sampleTree, OperationTree.parts, List.forall_mem_cons, List.cons_append, List.nil_append]
    exact ⟨⟨by decide, rfl, rfl⟩, ⟨by decide, rfl, rfl⟩, rfl, rfl, rfl, by simp⟩
  have hunnoted : ∀ part ∈ sampleTree.parts, (unresolved.graph.node part.root).kind.isNoted →
      (unresolved.graph.node part.root).get (unresolved.graph.node part.root).kind.noteField = .null := by
    simp only [sampleTree, OperationTree.parts, List.forall_mem_cons, List.cons_append, List.nil_append]
    exact ⟨fun _ => rfl, fun _ => rfl, fun _ => rfl, fun _ => rfl, fun _ => rfl, by simp⟩
  have htransparent := typeOf_is_transparent hfits hunnoted hproceeds hself
  rw [show typeOf (.node sampleTree.root) later = _ from hlast] at htransparent
  exact ⟨asked, later, last, hasked, hlater, hlast, htransparent.symm⟩

end Draft

end Scriptlet
