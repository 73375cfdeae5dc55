import Scriptlet.Proofs.Entries
import Scriptlet.Proofs.Outcome

/-!
Attributes of nodes: what a change of one attribute does to the others, and what the actions that read
and change attributes yield.
-/

namespace Scriptlet

namespace Node

theorem lookup_setField (field other : Field) (value : Value) (fields : List (Field × Value)) :
    (setField field value fields).lookup other =
      if other = field then some value else fields.lookup other :=
  lookup_put (setField field value) rfl (fun _ _ _ => rfl) fields other

@[simp] theorem kind_set (node : Node) (field : Field) (value : Value) :
    (node.set field value).kind = node.kind := rfl

theorem get?_set (node : Node) (field other : Field) (value : Value) :
    (node.set field value).get? other = if other = field then some value else node.get? other :=
  lookup_setField field other value node.fields

end Node

namespace Graph

variable {id : NodeId}
variable {graph : Graph} {field : Field}

theorem node_setField (graph : Graph) (id other : NodeId) (field : Field) (value : Value) :
    (graph.setField id field value).node other =
      if other = id ∧ id < graph.nodes.size then (graph.node other).set field value
      else graph.node other := by
  unfold setField node
  simp only [Array.getD_eq_getD_getElem?, Array.getElem?_modify]
  by_cases hid : id = other
  · subst hid
    by_cases hlt : id < graph.nodes.size <;> simp [hlt]
  · have : other ≠ id := fun h => hid h.symm
    simp [hid, this]

@[simp] theorem kind_setField (graph : Graph) (id other : NodeId) (field : Field) (value : Value) :
    ((graph.setField id field value).node other).kind = (graph.node other).kind := by
  rw [node_setField]
  split <;> simp

theorem get?_setField_of_ne (graph : Graph) {other : NodeId} {another : Field} (value : Value)
    (h : other ≠ id ∨ another ≠ field) :
    ((graph.setField id field value).node other).get? another = (graph.node other).get? another := by
  rw [node_setField]
  split
  case isTrue hsame =>
    rw [Node.get?_set, if_neg (h.resolve_left (not_not_intro hsame.1))]
  case isFalse => rfl

theorem lt_size_of_kind (h : (graph.node id).kind ≠ .plain) : id < graph.nodes.size := by
  by_contra hge
  apply h
  simp [node, Array.getD, hge]

theorem lt_size_of_get? {value : Value} (h : (graph.node id).get? field = some value) : id < graph.nodes.size := by
  by_contra hge
  simp [node, Array.getD, hge, Node.get?] at h

theorem get?_setField_self (graph : Graph) (field : Field) (value : Value) (h : (graph.node id).kind ≠ .plain) :
    ((graph.setField id field value).node id).get? field = some value := by
  rw [node_setField, if_pos ⟨rfl, lt_size_of_kind h⟩, Node.get?_set, if_pos rfl]

theorem node_add (graph : Graph) (node : Node) (id : NodeId) :
    (graph.add node).2.node id = if id = graph.nodes.size then node else graph.node id := by
  unfold add Graph.node
  simp only [Array.getD_eq_getD_getElem?, Array.getElem?_push]
  split <;> simp

@[simp] theorem fieldOf?_node (graph : Graph) (id : NodeId) (field : Field) :
    graph.fieldOf? (.node id) field = (graph.node id).get? field := rfl

@[simp] theorem kindOf?_node (graph : Graph) (id : NodeId) :
    graph.kindOf? (.node id) = some (graph.node id).kind := rfl

@[simp] theorem isKind_node (graph : Graph) (kind : Kind) (id : NodeId) :
    graph.isKind kind (.node id) = ((graph.node id).kind == kind) := rfl

end Graph

theorem Node.get_of_get? {node : Node} {field : Field} {value : Value}
    (h : node.get? field = some value) : node.get field = value := by
  simp [Node.get, h]

/-! ### Actions on attributes -/

namespace Draft

variable {draft draft' : Draft}
variable {value : Value} {field : Field} {items : List Value}
variable {holds : Bool} {found : List Value} {kind : Kind} {length : Nat}

@[simp] theorem currentGraph_eq_ok {graph : Graph} :
    currentGraph draft = .ok graph draft' ↔ draft.graph = graph ∧ draft = draft' := by
  simp only [currentGraph, bind_eq_ok, get_eq_ok, pure_eq_ok]
  constructor
  · rintro ⟨_, _, ⟨rfl, rfl⟩, rfl, rfl⟩
    exact ⟨rfl, rfl⟩
  · rintro ⟨rfl, rfl⟩
    exact ⟨_, _, ⟨rfl, rfl⟩, rfl, rfl⟩

theorem addNode_eq_ok {fields : List (Field × Value)} :
    addNode kind fields draft = .ok value draft' ↔
      .node draft.graph.nodes.size = value ∧ { draft with graph := (draft.graph.add ⟨kind, fields⟩).2 } = draft' :=
  modifyGet_eq_ok

@[simp] theorem getField_eq_ok {found : Value} :
    getField value field draft = .ok found draft' ↔
      draft.graph.fieldOf? value field = some found ∧ draft = draft' := by
  simp only [getField, bind_eq_ok, currentGraph_eq_ok]
  cases hfield : draft.graph.fieldOf? value field with
  | none =>
      simp only [reduceCtorEq, false_and, iff_false]
      rintro ⟨_, _, ⟨rfl, rfl⟩, h⟩
      simp [hfield] at h
  | some content =>
      constructor
      · rintro ⟨_, _, ⟨rfl, rfl⟩, h⟩
        simpa [hfield] using h
      · rintro ⟨h, rfl⟩
        exact ⟨_, _, ⟨rfl, rfl⟩, by simpa [hfield] using h⟩

@[simp] theorem isKind_eq_ok :
    isKind kind value draft = .ok holds draft' ↔ draft.graph.isKind kind value = holds ∧ draft = draft' := by
  simp only [isKind, bind_eq_ok, currentGraph_eq_ok, pure_eq_ok]
  constructor
  · rintro ⟨_, _, ⟨rfl, rfl⟩, rfl, rfl⟩
    exact ⟨rfl, rfl⟩
  · rintro ⟨rfl, rfl⟩
    exact ⟨_, _, ⟨rfl, rfl⟩, rfl, rfl⟩

@[simp] theorem hasField_eq_ok :
    hasField value field draft = .ok holds draft' ↔
      (draft.graph.fieldOf? value field).isSome = holds ∧ draft = draft' := by
  simp only [hasField, bind_eq_ok, currentGraph_eq_ok, pure_eq_ok]
  constructor
  · rintro ⟨_, _, ⟨rfl, rfl⟩, rfl, rfl⟩
    exact ⟨rfl, rfl⟩
  · rintro ⟨rfl, rfl⟩
    exact ⟨_, _, ⟨rfl, rfl⟩, rfl, rfl⟩

@[simp] theorem setField_node_eq_ok {id : NodeId} {content : Value} {u : Unit} :
    setField (.node id) field content draft = .ok u draft' ↔
      { draft with graph := draft.graph.setField id field content } = draft' := by
  simp [setField]

@[simp] theorem itemsOf_list_eq_ok :
    itemsOf (.list items) draft = .ok found draft' ↔ items = found ∧ draft = draft' := by
  simp [itemsOf]

@[simp] theorem itemsOf_tuple_eq_ok :
    itemsOf (.tuple items) draft = .ok found draft' ↔ items = found ∧ draft = draft' := by
  simp [itemsOf]

@[simp] theorem lengthOf_list_eq_ok :
    lengthOf (.list items) draft = .ok length draft' ↔ items.length = length ∧ draft = draft' := by
  simp [lengthOf]

theorem itemsOf_state (h : itemsOf value draft = .ok items draft') : draft' = draft := by
  unfold itemsOf at h
  split at h
  case h_5 => simp at h
  all_goals exact (pure_eq_ok.1 h).2.symm

theorem lengthOf_state (h : lengthOf value draft = .ok length draft') : draft' = draft := by
  unfold lengthOf at h
  split at h
  case h_5 => simp at h
  all_goals exact (pure_eq_ok.1 h).2.symm

end Draft

section Lifted

variable {σ : Type} [Carries σ] [LawfulCarries σ] {s t : σ}
variable {value : Value} {field : Field} {items : List Value}
variable {holds : Bool} {found : List Value}

@[simp] theorem lift_getField_eq_ok {found : Value} :
    (liftM (Draft.getField value field) : EStateM Failure σ Value) s = .ok found t ↔
      (Carries.draft s).graph.fieldOf? value field = some found ∧ s = t :=
  lift_eq_ok_of_reads fun _ _ _ => Draft.getField_eq_ok

@[simp] theorem lift_currentGraph_eq_ok {graph : Graph} :
    (liftM Draft.currentGraph : EStateM Failure σ Graph) s = .ok graph t ↔
      (Carries.draft s).graph = graph ∧ s = t :=
  lift_eq_ok_of_reads fun _ _ _ => Draft.currentGraph_eq_ok

@[simp] theorem lift_isKind_eq_ok {kind : Kind} :
    (liftM (Draft.isKind kind value) : EStateM Failure σ Bool) s = .ok holds t ↔
      (Carries.draft s).graph.isKind kind value = holds ∧ s = t :=
  lift_eq_ok_of_reads fun _ _ _ => Draft.isKind_eq_ok

@[simp] theorem lift_hasField_eq_ok :
    (liftM (Draft.hasField value field) : EStateM Failure σ Bool) s = .ok holds t ↔
      ((Carries.draft s).graph.fieldOf? value field).isSome = holds ∧ s = t :=
  lift_eq_ok_of_reads fun _ _ _ => Draft.hasField_eq_ok

omit [LawfulCarries σ] in
@[simp] theorem lift_setField_eq_ok {id : NodeId} {content : Value} {u : Unit} :
    (liftM (Draft.setField (.node id) field content) : EStateM Failure σ Unit) s = .ok u t ↔
      Carries.withDraft s { Carries.draft s with
        graph := (Carries.draft s).graph.setField id field content } = t := by
  simp [lift_eq_ok]

@[simp] theorem lift_itemsOf_list_eq_ok :
    (liftM (Draft.itemsOf (.list items)) : EStateM Failure σ (List Value)) s = .ok found t ↔
      items = found ∧ s = t :=
  lift_eq_ok_of_reads (P := fun _ found => items = found) fun _ _ _ => Draft.itemsOf_list_eq_ok

@[simp] theorem lift_itemsOf_tuple_eq_ok :
    (liftM (Draft.itemsOf (.tuple items)) : EStateM Failure σ (List Value)) s = .ok found t ↔
      items = found ∧ s = t :=
  lift_eq_ok_of_reads (P := fun _ found => items = found) fun _ _ _ => Draft.itemsOf_tuple_eq_ok

theorem lift_itemsOf_state (h : (liftM (Draft.itemsOf value) : EStateM Failure σ (List Value)) s = .ok items t) :
    t = s := by
  obtain ⟨draft, hitems, rfl⟩ := lift_eq_ok.1 h
  rw [Draft.itemsOf_state hitems, LawfulCarries.withDraft_draft]

theorem lift_lengthOf_state {length : Nat} (h : (liftM (Draft.lengthOf value) : EStateM Failure σ Nat) s = .ok length t) :
    t = s := by
  obtain ⟨draft, hlength, rfl⟩ := lift_eq_ok.1 h
  rw [Draft.lengthOf_state hlength, LawfulCarries.withDraft_draft]

end Lifted

@[simp] theorem draft_generation (g : Generation) : Carries.draft g = g.toDraft := rfl

@[simp] theorem draft_analysis (a : Analysis) : Carries.draft a = a.toDraft := rfl

theorem Check.attribute_eq_ok {a a' : Analysis} {id : NodeId} {field : Field} {found : Value} :
    (liftM (Draft.getField (.node id) field) : Check Value) a = .ok found a' ↔
      (a.graph.node id).get? field = some found ∧ a = a' :=
  lift_getField_eq_ok

theorem Emit.attribute_eq_ok {g g' : Generation} {id : NodeId} {field : Field} {found : Value} :
    (liftM (Draft.getField (.node id) field) : Emit Value) g = .ok found g' ↔
      (g.graph.node id).get? field = some found ∧ g = g' :=
  lift_getField_eq_ok

end Scriptlet
