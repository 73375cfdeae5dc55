import Scriptlet.Proofs.Grammar.Settling
import Mathlib.Data.List.Forall2

/-!
Reading a text in a larger one.

A text is read by itself, and once more behind nodes that were made before and in front of text that follows.
The second reading mirrors the first one: its nodes are the same behind the nodes that were there, apart from
their lines and parents, and its tokens are the same up to the last line break of the text, behind which the
first reading finds the end and the second one the text that follows.
-/

namespace Scriptlet

/-- An attribute that says where a node stands and not what it is. -/
def Field.isPlacing : Field → Bool
  | .line | .parent => true
  | _ => false

/-- The surroundings in which a text is read once more. -/
structure Setting where
  /-- The nodes that were made before. -/
  base : Graph
  /-- How many nodes the text makes. -/
  limit : Nat
  /-- The text that follows, its first token and what is behind it. -/
  tail : List Char
  opening : Option Token
  rest : List Char
  opens : Scanner.Offers tail opening rest

namespace Setting

variable {setting : Setting}
variable {cursor other : Cursor}

/-! ### Values and nodes -/

/-- Values that are the same, with the nodes behind those that were there before. -/
inductive Mirrors (setting : Setting) : Value → Value → Prop
  | scalar (value : Scalar) : Mirrors setting (.scalar value) (.scalar value)
  | node {id : NodeId} (h : id < setting.limit) : Mirrors setting (.node id) (.node (setting.base.nodes.size + id))
  | list {items others : List Value} (h : List.Forall₂ (Mirrors setting) items others) :
      Mirrors setting (.list items) (.list others)
  | tuple {items others : List Value} (h : List.Forall₂ (Mirrors setting) items others) :
      Mirrors setting (.tuple items) (.tuple others)

/-- Attributes of the same name with the same value, unless they only say where a node stands. -/
def MirrorsEntry (setting : Setting) (entry other : Field × Value) : Prop :=
  other.1 = entry.1 ∧ (entry.1.isPlacing ∨ setting.Mirrors entry.2 other.2)

structure MirrorsNode (setting : Setting) (node other : Node) : Prop where
  kind : other.kind = node.kind
  fields : List.Forall₂ setting.MirrorsEntry node.fields other.fields

theorem MirrorsNode.set {node other : Node} {field : Field} {value content : Value} (h : setting.MirrorsNode node other)
    (hvalue : field.isPlacing ∨ setting.Mirrors value content) :
    setting.MirrorsNode (node.set field value) (other.set field content) := by
  refine ⟨h.kind, ?_⟩
  have hset : ∀ {fields others : List (Field × Value)}, List.Forall₂ setting.MirrorsEntry fields others →
      List.Forall₂ setting.MirrorsEntry (Node.setField field value fields) (Node.setField field content others) := by
    intro fields others hfields
    induction hfields with
    | nil => exact .cons ⟨rfl, hvalue⟩ .nil
    | @cons entry other rest others hentry hrest ih =>
        obtain ⟨key, old⟩ := entry
        obtain ⟨_, old'⟩ := other
        obtain ⟨rfl, hsame⟩ := hentry
        unfold Node.setField
        split
        · exact .cons ⟨rfl, by simp_all⟩ hrest
        · exact .cons ⟨rfl, hsame⟩ ih
  exact hset h.fields

theorem MirrorsNode.isSome_get? {node other : Node} (h : setting.MirrorsNode node other) (field : Field) :
    (other.get? field).isSome = (node.get? field).isSome := by
  have hlookup : ∀ {fields others : List (Field × Value)}, List.Forall₂ setting.MirrorsEntry fields others →
      (others.lookup field).isSome = (fields.lookup field).isSome := by
    intro fields others hfields
    induction hfields with
    | nil => rfl
    | @cons entry other rest others hentry hrest ih =>
        obtain ⟨key, old⟩ := entry
        obtain ⟨key', old'⟩ := other
        obtain rfl : key' = key := hentry.1
        simp only [List.lookup_cons]
        cases field == key' <;> simp [ih]
  exact hlookup h.fields

/-- An attribute that says where a node stands may differ, as long as both nodes have it. -/
theorem forall₂_setField_placing {field : Field} (hfield : field.isPlacing) (value : Value)
    {fields others : List (Field × Value)} (h : List.Forall₂ setting.MirrorsEntry fields others)
    (hsome : (fields.lookup field).isSome) :
    List.Forall₂ setting.MirrorsEntry (Node.setField field value fields) others ∧
      List.Forall₂ setting.MirrorsEntry fields (Node.setField field value others) := by
  induction h with
  | nil => simp at hsome
  | @cons entry other rest others hentry hrest ih =>
      obtain ⟨key, old⟩ := entry
      obtain ⟨_, old'⟩ := other
      obtain ⟨rfl, hsame⟩ := hentry
      unfold Node.setField
      split
      case isTrue hkey =>
        exact ⟨.cons ⟨rfl, .inl (hkey ▸ hfield)⟩ hrest, .cons ⟨rfl, .inl (hkey ▸ hfield)⟩ hrest⟩
      case isFalse hkey =>
        rw [List.lookup_cons, beq_eq_false_iff_ne.2 (Ne.symm hkey)] at hsome
        obtain ⟨hleft, hright⟩ := ih hsome
        exact ⟨.cons ⟨rfl, hsame⟩ hleft, .cons ⟨rfl, hsame⟩ hright⟩

/-- A graph that holds the nodes of another one behind those that were there before. -/
structure MirrorsGraph (setting : Setting) (graph other : Graph) : Prop where
  size : other.nodes.size = setting.base.nodes.size + graph.nodes.size
  below : ∀ id < setting.base.nodes.size, other.node id = setting.base.node id
  nodes : ∀ id, setting.MirrorsNode (graph.node id) (other.node (setting.base.nodes.size + id))

namespace MirrorsGraph

variable {graph other : Graph}
variable {field : Field} {id : NodeId}

theorem add (h : setting.MirrorsGraph graph other) {node copy : Node} (hnode : setting.MirrorsNode node copy) :
    setting.MirrorsGraph (graph.add node).2 (other.add copy).2 where
  size := by simp [Graph.add, h.size, Nat.add_assoc]
  below id hid := by
    rw [Graph.node_add, h.size, if_neg (Nat.ne_of_lt (Nat.lt_add_right _ hid))]
    exact h.below id hid
  nodes id := by
    rw [Graph.node_add, Graph.node_add, h.size]
    by_cases hid : id = graph.nodes.size
    · rw [if_pos hid, if_pos (by rw [hid])]
      exact hnode
    · rw [if_neg hid, if_neg fun heq => hid (Nat.add_left_cancel heq)]
      exact h.nodes id

theorem setField (h : setting.MirrorsGraph graph other) {value content : Value}
    (hvalue : field.isPlacing ∨ setting.Mirrors value content) :
    setting.MirrorsGraph (graph.setField id field value) (other.setField (setting.base.nodes.size + id) field content) where
  size := by simp [Graph.setField, h.size]
  below other hother := by
    rw [Graph.node_setField, if_neg fun hsame => Nat.ne_of_lt (Nat.lt_add_right _ hother) hsame.1]
    exact h.below other hother
  nodes other := by
    rw [Graph.node_setField, Graph.node_setField, h.size]
    by_cases hid : other = id ∧ id < graph.nodes.size
    · rw [if_pos hid, if_pos ⟨by rw [hid.1], Nat.add_lt_add_left hid.2 _⟩]
      exact (h.nodes other).set hvalue
    · rw [if_neg hid, if_neg fun hsame => hid ⟨Nat.add_left_cancel hsame.1, Nat.lt_of_add_lt_add_left hsame.2⟩]
      exact h.nodes other

/-- A node may be moved in one of the two graphs only. -/
theorem setField_left (h : setting.MirrorsGraph graph other) (hfield : field.isPlacing)
    (hsome : ((graph.node id).get? field).isSome) (value : Value) :
    setting.MirrorsGraph (graph.setField id field value) other where
  size := by simp [Graph.setField, h.size]
  below := h.below
  nodes other := by
    rw [Graph.node_setField]
    split
    case isTrue hid =>
      obtain ⟨rfl, -⟩ := hid
      exact ⟨(h.nodes other).kind, (forall₂_setField_placing hfield value (h.nodes other).fields hsome).1⟩
    case isFalse => exact h.nodes other

theorem setField_right (h : setting.MirrorsGraph graph other) (hfield : field.isPlacing)
    (hsome : ((graph.node id).get? field).isSome) (value : Value) :
    setting.MirrorsGraph graph (other.setField (setting.base.nodes.size + id) field value) where
  size := by simp [Graph.setField, h.size]
  below other hother := by
    rw [Graph.node_setField, if_neg fun hsame => Nat.ne_of_lt (Nat.lt_add_right _ hother) hsame.1]
    exact h.below other hother
  nodes other := by
    rw [Graph.node_setField]
    split
    case isTrue hid =>
      obtain rfl := Nat.add_left_cancel hid.1
      exact ⟨(h.nodes other).kind, (forall₂_setField_placing hfield value (h.nodes other).fields hsome).2⟩
    case isFalse => exact h.nodes other

end MirrorsGraph

/-! ### Cursors -/

/-- The tokens at hand and the text to come.  At the brink both readings are at the last line break, behind which
one finds the end and the other the text that follows. -/
inductive Window (setting : Setting) (cursor other : Cursor) : Prop
  | inside (hcurrent : other.current = cursor.current) (hahead : other.ahead = cursor.ahead)
      (hrest : other.scanner.rest = cursor.scanner.rest ++ setting.tail)
      (hend : setting.tail ≠ [] → ¬ cursor.isBefore [.eof])
  | brink (htail : setting.tail ≠ []) (hcurrent : other.current = cursor.current) (hat : cursor.isAt [.newline])
      (hempty : cursor.scanner.rest = []) (hend : cursor.isBefore [.eof])
      (hahead : other.ahead = setting.opening) (hrest : other.scanner.rest = setting.rest)

theorem Window.current (h : setting.Window cursor other) : other.current = cursor.current := by
  cases h <;> assumption

/-- Only the tokens matter. -/
theorem Window.of_eq {cursor' other' : Cursor} (h : setting.Window cursor other)
    (hcurrent : cursor'.current = cursor.current) (hahead : cursor'.ahead = cursor.ahead)
    (hscanner : cursor'.scanner = cursor.scanner) (hcurrent' : other'.current = other.current)
    (hahead' : other'.ahead = other.ahead) (hscanner' : other'.scanner = other.scanner) :
    setting.Window cursor' other' := by
  have hat (kinds : List TokenKind) : cursor'.isAt kinds = cursor.isAt kinds := by
    rw [Cursor.isAt, Cursor.currentKind?, hcurrent, Cursor.isAt, Cursor.currentKind?]
  have hbefore (kinds : List TokenKind) : cursor'.isBefore kinds = cursor.isBefore kinds := by
    rw [Cursor.isBefore, hahead, Cursor.isBefore]
  cases h with
  | inside h1 h2 h3 h4 =>
      exact .inside (hcurrent'.trans (h1.trans hcurrent.symm)) (hahead'.trans (h2.trans hahead.symm))
        (by rw [hscanner', h3, hscanner]) (hbefore _ ▸ h4)
  | brink htail h1 h2 h3 h4 h5 h6 =>
      exact .brink htail (hcurrent'.trans (h1.trans hcurrent.symm)) (hat _ ▸ h2) (by rw [hscanner, h3]) (hbefore _ ▸ h4)
        (hahead'.trans h5) (by rw [hscanner', h6])

/-- What two readings have made so far. -/
structure Agrees (setting : Setting) (cursor other : Cursor) : Prop where
  graph : setting.MirrorsGraph cursor.graph other.graph
  journal : other.journal = cursor.journal
  inFunction : other.inFunction = cursor.inFunction
  inLoop : other.inLoop = cursor.inLoop
  focus : cursor.focus = .null ∨ setting.Mirrors cursor.focus other.focus

/-- Two readings that are at the same token. -/
structure Matches (setting : Setting) (cursor other : Cursor) : Prop extends setting.Agrees cursor other where
  window : setting.Window cursor other

theorem Matches.currentKind? (h : setting.Matches cursor other) : other.currentKind? = cursor.currentKind? :=
  congrArg (Option.map Token.kind) h.window.current

theorem Matches.isAt (h : setting.Matches cursor other) (kinds : List TokenKind) :
    other.isAt kinds = cursor.isAt kinds := by
  rw [Cursor.isAt, h.currentKind?, Cursor.isAt]

/-- A cursor from which a text goes on: nothing was said, the end has not come if there is text behind it, and no
more nodes were made than the text makes. -/
structure Inside (setting : Setting) (cursor : Cursor) : Prop where
  quiet : cursor.IsQuiet
  not_eof : setting.tail ≠ [] → ¬ cursor.isAt [.eof]
  size : cursor.graph.nodes.size ≤ setting.limit

theorem Inside.of_onward {before after : Cursor} (h : before.Onward after) (hinside : setting.Inside after) :
    setting.Inside before :=
  ⟨h.quiet hinside.quiet, fun htail heof => hinside.not_eof htail (h.eof heof), h.size.trans hinside.size⟩

/-- A text before other text is made of lines. -/
def Fits (setting : Setting) (cursor : Cursor) : Prop :=
  setting.tail ≠ [] → cursor.IsSound

end Setting

/-! ### Results -/

/-- How the results of two readings correspond. -/
class Mirror (α : Type) where
  rel : Setting → α → α → Prop

instance : Mirror Unit := ⟨fun _ => Eq⟩
instance : Mirror Bool := ⟨fun _ => Eq⟩
instance : Mirror Nat := ⟨fun _ => Eq⟩
instance : Mirror String := ⟨fun _ => Eq⟩
instance : Mirror Scalar := ⟨fun _ => Eq⟩
instance : Mirror Value := ⟨Setting.Mirrors⟩
instance {α : Type} [Mirror α] : Mirror (List α) := ⟨fun setting => List.Forall₂ (Mirror.rel setting)⟩
instance {α β : Type} [Mirror α] [Mirror β] : Mirror (α × β) :=
  ⟨fun setting a b => Mirror.rel setting a.1 b.1 ∧ Mirror.rel setting a.2 b.2⟩
instance {α : Type} [Mirror α] : Mirror (Option α) := ⟨fun setting => Option.Rel (Mirror.rel setting)⟩
instance : Mirror Parse.NameList :=
  ⟨fun setting a b => Mirror.rel setting a.names b.names ∧ Mirror.rel setting a.type b.type⟩

/-- Results that are the same in both readings. -/
class IsFlat (α : Type) [Mirror α] : Prop where
  rel_iff : ∀ {setting} {a b : α}, Mirror.rel setting a b ↔ a = b

instance : IsFlat Unit := ⟨Iff.rfl⟩
instance : IsFlat Bool := ⟨Iff.rfl⟩
instance : IsFlat Nat := ⟨Iff.rfl⟩
instance : IsFlat String := ⟨Iff.rfl⟩
instance : IsFlat Scalar := ⟨Iff.rfl⟩

/-- Results that correspond. -/
class Mirrored (setting : Setting) {α : Type} [Mirror α] (a b : α) : Prop where
  rel : Mirror.rel setting a b

/-- A result of each reading, the two of which correspond. -/
structure Twin (setting : Setting) (α : Type) [Mirror α] where
  here : α
  there : α
  rel : Mirror.rel setting here there

namespace Mirrored

variable {setting : Setting} {α β : Type}
variable {value other : Value} {a b : α} {others : List Value}

instance [Mirror α] (twin : Twin setting α) : Mirrored setting twin.here twin.there := ⟨twin.rel⟩
instance [Mirror α] [IsFlat α] : Mirrored setting a a := ⟨IsFlat.rel_iff.2 rfl⟩
instance (value : Scalar) : Mirrored setting (Value.scalar value) (.scalar value) := ⟨.scalar value⟩
instance {items : List Value} [h : Mirrored setting items others] :
    Mirrored setting (Value.list items) (.list others) := ⟨.list h.rel⟩
instance {items : List Value} [h : Mirrored setting items others] :
    Mirrored setting (Value.tuple items) (.tuple others) := ⟨.tuple h.rel⟩
instance [Mirror α] : Mirrored setting ([] : List α) [] := ⟨.nil⟩
instance [Mirror α] {items others : List α} [h : Mirrored setting a b] [h' : Mirrored setting items others] :
    Mirrored setting (a :: items) (b :: others) := ⟨.cons h.rel h'.rel⟩
instance [Mirror α] {first second first' second' : List α} [h : Mirrored setting first first']
    [h' : Mirrored setting second second'] : Mirrored setting (first ++ second) (first' ++ second') :=
  ⟨List.rel_append h.rel h'.rel⟩
instance [Mirror α] [Mirror β] {a' : α} {b b' : β} [h : Mirrored setting a a'] [h' : Mirrored setting b b'] :
    Mirrored setting (a, b) (a', b') := ⟨h.rel, h'.rel⟩
instance [Mirror α] [Mirror β] {p p' : α × β} [h : Mirrored setting p p'] : Mirrored setting p.1 p'.1 := ⟨h.rel.1⟩
instance [Mirror α] [Mirror β] {p p' : α × β} [h : Mirrored setting p p'] : Mirrored setting p.2 p'.2 := ⟨h.rel.2⟩
instance [Mirror α] : Mirrored setting (none : Option α) none := ⟨.none⟩
instance [Mirror α] [h : Mirrored setting a b] : Mirrored setting (some a) (some b) := ⟨.some h.rel⟩
instance {names : List Value} {type type' : Value} [h : Mirrored setting names others]
    [h' : Mirrored setting type type'] : Mirrored setting (⟨names, type⟩ : Parse.NameList) ⟨others, type'⟩ :=
  ⟨h.rel, h'.rel⟩
instance {list other : Parse.NameList} [h : Mirrored setting list other] : Mirrored setting list.names other.names :=
  ⟨h.rel.1⟩
instance {list other : Parse.NameList} [h : Mirrored setting list other] : Mirrored setting list.type other.type :=
  ⟨h.rel.2⟩

theorem isNull_eq (h : setting.Mirrors value other) : value.isNull = other.isNull := by
  cases h <;> rfl

instance [h : Mirrored setting value other] : Mirrored setting value.isNull other.isNull :=
  ⟨isNull_eq h.rel⟩
instance {b b' : Bool} [h : Mirrored setting b b'] : Mirrored setting (!b) (!b') := ⟨congrArg _ h.rel⟩
instance {a a' b b' : Bool} [h : Mirrored setting a a'] [h' : Mirrored setting b b'] :
    Mirrored setting (a && b) (a' && b') := ⟨congrArg₂ _ h.rel h'.rel⟩

instance [Mirror α] {c c' : Bool} {a' b' : α} [hc : Mirrored setting c c'] [h : Mirrored setting a a']
    [h' : Mirrored setting b b'] : Mirrored setting (if c = true then a else b) (if c' = true then a' else b') := by
  obtain rfl : c = c' := hc.rel
  split
  · exact h
  · exact h'

instance [h : Mirrored setting value other] :
    Mirrored setting (Parse.statementList value) (Parse.statementList other) := by
  obtain ⟨h⟩ := h
  cases h with
  | scalar value => cases value <;> exact ⟨by first | exact .nil | exact .cons (.scalar _) .nil⟩
  | node h => exact ⟨.cons (.node h) .nil⟩
  | list h => exact ⟨h⟩
  | tuple h => exact ⟨.cons (.tuple h) .nil⟩

end Mirrored

end Scriptlet
