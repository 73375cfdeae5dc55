import Scriptlet.Proofs.Node
import Scriptlet.Proofs.Reading

/-!
The type of a node as a function of the graph, and the notes that operations keep of their types.

Asking for a type may leave notes behind.  A note says what would be found without it, so the type of no
node changes by them, however often and in whatever order types are asked for.
-/

namespace Scriptlet

theorem isText_iff {value : Value} {word : String} : value.isText word = true ↔ value = .text word := by
  cases value with
  | scalar scalar => cases scalar <;> simp [Value.isText]
  | _ => simp [Value.isText]

/-- Where the type of a node is to be looked for. -/
inductive TypeSource where
  | missing (label : String)
  | given (type : Value)
  | child (value : Value)
  | operands

/-- The attribute in which an operation keeps its type. -/
def Kind.noteField : Kind → Field
  | .binary => .cachedType
  | _ => .ownCachedType

/-- Operations keep a note of their type. -/
def Kind.isNoted : Kind → Bool
  | .binary | .unary | .comparison | .logical => true
  | _ => false

namespace Node

variable {node : Node}

def typeOrInvalid (type : Value) : Value :=
  if type.isNull then Draft.invalidType else type

def noteOr (node : Node) (field : Field) (source : TypeSource) : TypeSource :=
  if (node.get field).isNull then source else .given (node.get field)

def typeSource (node : Node) : TypeSource :=
  match node.kind with
  | .plain | .program | .block | .function | .breaking | .conditional | .loop | .expression =>
      .missing "evaluateType"
  | .declaration | .update | .returning =>
      if (node.get .value).isNull then .given Draft.invalidType else .child (node.get .value)
  | .reference | .call => .given (typeOrInvalid (node.get .type))
  | .parameter => .given (node.get .type)
  | .argument => node.noteOr .cachedType (.child (node.get .value))
  | .method => match node.get? .returnType with
      | some type => .given (typeOrInvalid type)
      | none => .missing Field.returnType.label
  | .concat => .given (.text TypeName.string)
  | .binary => node.noteOr .cachedType .operands
  | .unary | .comparison | .logical => node.noteOr .ownCachedType .operands
  | .integer | .double | .boolean | .string | .null => .given (.text (literalType node.kind (node.get .value)))

theorem typeSource_of_isNoted (h : node.kind.isNoted) :
    node.typeSource = node.noteOr node.kind.noteField .operands := by
  unfold typeSource
  cases hkind : node.kind
  case binary | unary | comparison | logical => rfl
  all_goals
    rw [hkind] at h
    cases h

theorem isNoted_of_operands (h : node.typeSource = .operands) : node.kind.isNoted := by
  unfold typeSource noteOr at h
  cases hkind : node.kind <;> rw [hkind] at h
  case binary | unary | comparison | logical => rfl
  case declaration | update | returning | argument | method =>
    dsimp only at h
    split at h <;> cases h
  all_goals cases h

/-- An operation with a note is of the type that the note says. -/
theorem typeSource_set_note {type : String} (h : node.kind.isNoted) :
    (node.set node.kind.noteField (.text type)).typeSource = .given (.text type) := by
  rw [typeSource_of_isNoted (by rwa [kind_set]), noteOr, kind_set, get, get?_set, if_pos rfl]
  rfl

end Node

/-- The type of a sign or a negation, if its operand is of the right type. -/
def signType? (operator operand : Value) : Option String :=
  if operator.isText "!" then
    if operand.isText TypeName.boolean then some TypeName.boolean else none
  else if operator.isOneOf ["-", "+"] then
    match operand with
    | .text type => if isNumeric operand then some type else none
    | _ => none
  else none

def operationType? (kind : Kind) (operator left right : Value) : Option String :=
  match kind with
  | .binary => binaryType? operator left right
  | .unary => signType? operator left
  | .comparison =>
      if left.isOneOf comparableTypes && right.isOneOf comparableTypes then some TypeName.boolean else none
  | .logical =>
      if left.isText TypeName.boolean && right.isText TypeName.boolean then some TypeName.boolean else none
  | _ => none

theorem operationType?_ne_invalid {kind : Kind} {operator left right : Value} {type : String}
    (h : operationType? kind operator left right = some type) : type ≠ TypeName.invalid := by
  rintro rfl
  cases kind
  case binary =>
    simp only [operationType?, binaryType?] at h
    split_ifs at h
    all_goals exact absurd (Option.some.inj h) (by decide)
  case unary =>
    simp only [operationType?, signType?] at h
    split at h
    · split_ifs at h
      exact absurd (Option.some.inj h) (by decide)
    · split at h
      · split at h
        · split at h
          case isTrue hnumeric =>
            obtain rfl := Option.some.inj h
            exact absurd hnumeric (by decide)
          case isFalse => cases h
        · cases h
      · cases h
  case comparison | logical =>
    simp only [operationType?] at h
    split_ifs at h
    exact absurd (Option.some.inj h) (by decide)
  all_goals cases h

def settledType : Option String → Value
  | some type => .text type
  | none => Draft.invalidType

namespace Node

variable {node : Node}

def rightType (node : Node) (typeOf : Value → Option Value) : Option Value :=
  if node.kind = .unary then some .null else typeOf (node.get .right)

def operandTypes (node : Node) (typeOf : Value → Option Value) : Option (Value × Value) :=
  (typeOf (node.get .left)).bind fun left => (node.rightType typeOf).map fun right => (left, right)

theorem operandTypes_eq_some {typeOf : Value → Option Value} {left right : Value} :
    node.operandTypes typeOf = some (left, right) ↔
      typeOf (node.get .left) = some left ∧ node.rightType typeOf = some right := by
  simp [operandTypes, Option.bind_eq_some_iff]

theorem rightType_mono {first second : Value → Option Value} {right : Value}
    (h : ∀ value type, first value = some type → second value = some type) (hright : node.rightType first = some right) :
    node.rightType second = some right := by
  unfold rightType at hright ⊢
  split at hright
  case isTrue hunary => rwa [if_pos hunary]
  case isFalse hunary =>
    rw [if_neg hunary]
    exact h _ _ hright

theorem operandTypes_mono {first second : Value → Option Value} {types : Value × Value}
    (h : ∀ value type, first value = some type → second value = some type)
    (htypes : node.operandTypes first = some types) : node.operandTypes second = some types := by
  obtain ⟨left, right⟩ := types
  rw [operandTypes_eq_some] at htypes ⊢
  exact ⟨h _ _ htypes.1, rightType_mono h htypes.2⟩

end Node

namespace Graph

/-- The type that is found for a value when types may be looked for up to a depth. -/
def typeAt (graph : Graph) : Nat → Value → Option Value
  | 0, _ => none
  | depth + 1, .node id =>
      let node := graph.node id
      match node.typeSource with
      | .missing _ => none
      | .given type => some type
      | .child value => typeAt graph depth value
      | .operands => (node.operandTypes (typeAt graph depth)).map fun types =>
          settledType (operationType? node.kind (node.get .operator) types.1 types.2)
  | _ + 1, _ => none

def HasType (graph : Graph) (value type : Value) : Prop :=
  ∃ depth, graph.typeAt depth value = some type

section Types

variable {graph changed later : Graph} {depth id : Nat} {value type : Value}

theorem typeAt_node : graph.typeAt (depth + 1) (.node id) = match (graph.node id).typeSource with
    | .missing _ => none
    | .given type => some type
    | .child value => graph.typeAt depth value
    | .operands => ((graph.node id).operandTypes (graph.typeAt depth)).map fun types =>
        settledType (operationType? (graph.node id).kind ((graph.node id).get .operator) types.1 types.2) := rfl

theorem typeAt_of_given (h : (graph.node id).typeSource = .given type) :
    graph.typeAt (depth + 1) (.node id) = some type := by
  rw [typeAt_node, h]

/-- Only nodes have types. -/
theorem exists_of_typeAt (h : graph.typeAt depth value = some type) : ∃ rest id, depth = rest + 1 ∧ value = .node id := by
  match depth, value with
  | 0, _ => cases h
  | rest + 1, .node id => exact ⟨rest, id, rfl, rfl⟩
  | _ + 1, .scalar _ | _ + 1, .list _ | _ + 1, .tuple _ | _ + 1, .record _ => cases h

theorem typeAt_mono {deeper : Nat} (h : graph.typeAt depth value = some type) (hle : depth ≤ deeper) :
    graph.typeAt deeper value = some type := by
  induction depth generalizing value type deeper with
  | zero => cases h
  | succ depth ih =>
      obtain ⟨_, id, -, rfl⟩ := exists_of_typeAt h
      obtain ⟨deeper, rfl⟩ : ∃ rest, deeper = rest + 1 := ⟨deeper - 1, by omega⟩
      rw [typeAt_node] at h ⊢
      split at h
      case h_1 => cases h
      case h_2 => exact h
      case h_3 child => exact ih h (by omega)
      case h_4 =>
        obtain ⟨types, htypes, rfl⟩ := Option.map_eq_some_iff.1 h
        exact Option.map_eq_some_iff.2 ⟨types, Node.operandTypes_mono (fun _ _ h => ih h (by omega)) htypes, rfl⟩

theorem HasType.unique {other : Value} (h : graph.HasType value type) (h' : graph.HasType value other) :
    type = other := by
  obtain ⟨depth, h⟩ := h
  obtain ⟨depth', h'⟩ := h'
  have hleft := typeAt_mono h (Nat.le_add_right depth depth')
  have hright := typeAt_mono h' (Nat.le_add_left depth' depth)
  exact Option.some.inj (hleft.symm.trans hright)

theorem hasType_of_given (h : (graph.node id).typeSource = .given type) : graph.HasType (.node id) type :=
  ⟨1, typeAt_of_given h⟩

theorem HasType.of_child {child : Value} (h : (graph.node id).typeSource = .child child)
    (hchild : graph.HasType child type) : graph.HasType (.node id) type := by
  obtain ⟨depth, hdepth⟩ := hchild
  refine ⟨depth + 1, ?_⟩
  rw [typeAt_node, h]
  exact hdepth

theorem HasType.of_operands {left right : Value} (h : (graph.node id).typeSource = .operands)
    (hleft : graph.HasType ((graph.node id).get .left) left)
    (hright : ∃ depth, (graph.node id).rightType (graph.typeAt depth) = some right) :
    graph.HasType (.node id)
      (settledType (operationType? (graph.node id).kind ((graph.node id).get .operator) left right)) := by
  obtain ⟨depth, hleft⟩ := hleft
  obtain ⟨depth', hright⟩ := hright
  have htypes : (graph.node id).operandTypes (graph.typeAt (depth + depth')) = some (left, right) :=
    Node.operandTypes_eq_some.2 ⟨typeAt_mono hleft (Nat.le_add_right _ _),
      Node.rightType_mono (fun _ _ h => typeAt_mono h (Nat.le_add_left _ _)) hright⟩
  refine ⟨depth + depth' + 1, ?_⟩
  rw [typeAt_node, h, htypes]
  rfl

theorem exists_rightType {right : Value} (h : (graph.node id).kind = .unary ∧ right = .null ∨
    (graph.node id).kind ≠ .unary ∧ graph.HasType ((graph.node id).get .right) right) :
    ∃ depth, (graph.node id).rightType (graph.typeAt depth) = some right := by
  rcases h with ⟨hunary, rfl⟩ | ⟨hbinary, depth, hright⟩
  · exact ⟨0, if_pos hunary⟩
  · refine ⟨depth, ?_⟩
    rw [Node.rightType, if_neg hbinary, hright]

end Types

/-! ### Where the type of a node comes from -/

end Graph

namespace Node

/-- The values whose types decide on the type of a node. -/
def regards (node : Node) : List Value :=
  match node.typeSource with
  | .child value => [value]
  | .operands => [node.get .left, node.get .right]
  | _ => []

/-- Nodes whose types are found in the same way. -/
structure SameFace (a b : Node) : Prop where
  kind : b.kind = a.kind
  source : b.typeSource = a.typeSource
  left : b.get .left = a.get .left
  right : b.get .right = a.get .right
  operator : b.get .operator = a.get .operator

theorem SameFace.refl (a : Node) : a.SameFace a :=
  ⟨rfl, rfl, rfl, rfl, rfl⟩

/-- Attributes that the type of a node depends on. -/
def face : List Field :=
  [.value, .type, .cachedType, .ownCachedType, .returnType, .left, .right, .operator]

theorem sameFace_set {node : Node} {field : Field} {value : Value} (h : field ∉ face) :
    node.SameFace (node.set field value) := by
  have hget? : ∀ other ∈ face, (node.set field value).get? other = node.get? other := by
    intro other hother
    have hne : other ≠ field := fun heq => h (heq ▸ hother)
    rw [get?_set, if_neg hne]
  have hget : ∀ other ∈ face, (node.set field value).get other = node.get other := by
    intro other hother
    rw [get, hget? other hother, ← get]
  refine ⟨rfl, ?_, hget _ (by decide), hget _ (by decide), hget _ (by decide)⟩
  unfold typeSource noteOr
  rw [kind_set, hget .value (by decide), hget .type (by decide), hget .cachedType (by decide),
    hget .ownCachedType (by decide), hget? .returnType (by decide)]

/-- The type of a node is decided by values that it holds. -/
theorem exists_of_mem_regards {node : Node} {value : Value} (h : value ∈ node.regards) :
    node.kind ≠ .reference ∧ ∃ field ∈ [Field.value, .left, .right], node.get field = value := by
  unfold regards at h
  cases hsource : node.typeSource with
  | missing label | given type =>
      rw [hsource] at h
      cases h
  | operands =>
      rw [hsource] at h
      refine ⟨fun hkind => ?_, ?_⟩
      · rw [typeSource, hkind] at hsource
        cases hsource
      · simp only [List.mem_cons, List.not_mem_nil, or_false] at h
        rcases h with rfl | rfl
        · exact ⟨.left, by decide, rfl⟩
        · exact ⟨.right, by decide, rfl⟩
  | child child =>
      rw [hsource] at h
      obtain rfl := List.mem_singleton.1 h
      unfold typeSource noteOr at hsource
      cases hkind : node.kind <;> rw [hkind] at hsource
      case declaration | update | returning | argument =>
        dsimp only at hsource
        refine ⟨by simp, .value, by decide, ?_⟩
        split at hsource <;> cases hsource
        rfl
      case method | binary | unary | comparison | logical =>
        dsimp only at hsource
        split at hsource <;> cases hsource
      all_goals cases hsource

end Node

namespace Graph

section Faces

variable {graph changed : Graph}

theorem typeAt_of_not_node {depth : Nat} {value : Value} (h : ∀ id, value ≠ .node id) :
    graph.typeAt depth value = none := by
  cases htype : graph.typeAt depth value with
  | none => rfl
  | some type =>
      obtain ⟨_, id, -, rfl⟩ := exists_of_typeAt htype
      exact absurd rfl (h id)

/-- The types of nodes depend only on nodes that are regarded. -/
theorem typeAt_congr {P : Nat → Prop}
    (hclosed : ∀ id child : Nat, P id → .node child ∈ (graph.node id).regards → P child)
    (hface : ∀ id : Nat, P id → (graph.node id).SameFace (changed.node id)) (depth : Nat) :
    ∀ id : Nat, P id → changed.typeAt depth (.node id) = graph.typeAt depth (.node id) := by
  induction depth with
  | zero => exact fun _ _ => rfl
  | succ depth ih =>
      intro id hid
      obtain ⟨hkind, hsource, hleft, hright, hoperator⟩ := hface id hid
      have hregards : ∀ value ∈ (graph.node id).regards, changed.typeAt depth value = graph.typeAt depth value := by
        intro value hvalue
        cases value with
        | node child => exact ih child (hclosed id child hid hvalue)
        | _ => rw [typeAt_of_not_node (by simp), typeAt_of_not_node (by simp)]
      rw [typeAt_node, typeAt_node, hsource]
      unfold Node.regards at hregards
      cases hcase : (graph.node id).typeSource with
      | missing label => rfl
      | given type => rfl
      | child value =>
          rw [hcase] at hregards
          exact hregards value (List.mem_singleton.2 rfl)
      | operands =>
          rw [hcase] at hregards
          have hfirst := hregards _ (List.mem_cons_self ..)
          have hsecond := hregards _ (List.mem_cons_of_mem _ (List.mem_singleton.2 rfl))
          simp only [Node.operandTypes, Node.rightType, hkind, hleft, hright, hoperator, hfirst, hsecond]

end Faces

/-! ### Notes -/

/-- Some operations have got a note of their type. -/
structure Noted (graph changed : Graph) : Prop where
  size : changed.nodes.size = graph.nodes.size
  kind : ∀ id, (changed.node id).kind = (graph.node id).kind
  get? : ∀ id field, field ≠ .cachedType → field ≠ .ownCachedType →
    (changed.node id).get? field = (graph.node id).get? field
  source : ∀ id, (changed.node id).typeSource = (graph.node id).typeSource ∨
    (graph.node id).typeSource = .operands ∧
      ∃ type : String, type ≠ TypeName.invalid ∧ (changed.node id).typeSource = .given (.text type) ∧
        graph.HasType (.node id) (.text type)

section Notes

variable {graph changed later : Graph} {depth id : Nat} {value type : Value}

theorem Noted.refl (graph : Graph) : graph.Noted graph :=
  ⟨rfl, fun _ => rfl, fun _ _ _ _ => rfl, fun _ => .inl rfl⟩

theorem Noted.get (h : graph.Noted changed) (id : Nat) {field : Field} (hcached : field ≠ .cachedType)
    (hown : field ≠ .ownCachedType) : (changed.node id).get field = (graph.node id).get field := by
  rw [Node.get, h.get? id field hcached hown, ← Node.get]

theorem Noted.operandTypes (h : graph.Noted changed) (id : Nat) (typeOf : Value → Option Value) :
    (changed.node id).operandTypes typeOf = (graph.node id).operandTypes typeOf := by
  unfold Node.operandTypes Node.rightType
  rw [h.get id (by decide : Field.left ≠ _) (by decide), h.get id (by decide : Field.right ≠ _) (by decide), h.kind id]

theorem Noted.typeAt (h : graph.Noted changed) (htype : graph.typeAt depth value = some type) :
    changed.typeAt depth value = some type := by
  induction depth generalizing value type with
  | zero => cases htype
  | succ depth ih =>
      obtain ⟨_, id, -, rfl⟩ := exists_of_typeAt htype
      rcases h.source id with hsame | ⟨hoperands, found, -, hgiven, hfound⟩
      · rw [typeAt_node] at htype ⊢
        rw [hsame, h.kind id, h.get id (by decide : Field.operator ≠ _) (by decide), h.operandTypes id]
        split at htype
        case h_1 => cases htype
        case h_2 => exact htype
        case h_3 => exact ih htype
        case h_4 =>
          obtain ⟨types, htypes, rfl⟩ := Option.map_eq_some_iff.1 htype
          exact Option.map_eq_some_iff.2 ⟨types, Node.operandTypes_mono (fun _ _ => ih) htypes, rfl⟩
      · rw [typeAt_of_given hgiven, hfound.unique ⟨_, htype⟩]

/-- A type that is found after notes have been made could be found before. -/
theorem Noted.hasType (h : graph.Noted changed) (htype : changed.HasType value type) : graph.HasType value type := by
  obtain ⟨depth, htype⟩ := htype
  induction depth generalizing value type with
  | zero => cases htype
  | succ depth ih =>
      obtain ⟨_, id, -, rfl⟩ := exists_of_typeAt htype
      rw [typeAt_node] at htype
      rcases h.source id with hsame | ⟨hoperands, found, -, hgiven, hfound⟩
      · rw [hsame, h.kind id, h.get id (by decide : Field.operator ≠ _) (by decide), h.operandTypes id] at htype
        split at htype
        case h_1 => cases htype
        case h_2 hgiven =>
          cases htype
          exact hasType_of_given hgiven
        case h_3 hchild => exact .of_child hchild (ih htype)
        case h_4 hoperands =>
          obtain ⟨⟨left, right⟩, htypes, rfl⟩ := Option.map_eq_some_iff.1 htype
          obtain ⟨hleft, hright⟩ := Node.operandTypes_eq_some.1 htypes
          refine .of_operands hoperands (ih hleft) (exists_rightType ?_)
          unfold Node.rightType at hright
          split at hright
          case isTrue hunary => exact .inl ⟨hunary, (Option.some.inj hright).symm⟩
          case isFalse hbinary => exact .inr ⟨hbinary, ih hright⟩
      · rw [hgiven] at htype
        cases htype
        exact hfound

theorem Noted.trans (h : graph.Noted changed) (h' : changed.Noted later) : graph.Noted later where
  size := h'.size.trans h.size
  kind id := (h'.kind id).trans (h.kind id)
  get? id field hcached hown := (h'.get? id field hcached hown).trans (h.get? id field hcached hown)
  source id := by
    rcases h'.source id with hsame | ⟨hoperands, type, hvalid, hgiven, htype⟩
    · rw [hsame]
      exact h.source id
    · rcases h.source id with hsame | ⟨-, found, -, hfound, -⟩
      · exact .inr ⟨hsame ▸ hoperands, type, hvalid, hgiven, h.hasType htype⟩
      · rw [hfound] at hoperands
        cases hoperands

/-- An operation whose operands have been asked for their types. -/
theorem Noted.typeAt_operands {left right : Value} (h : graph.Noted changed)
    (hsource : (graph.node id).typeSource = .operands) (htype : graph.HasType (.node id)
      (settledType (operationType? (graph.node id).kind ((graph.node id).get .operator) left right)))
    (hoperands : (graph.node id).operandTypes (changed.typeAt depth) = some (left, right)) :
    changed.typeAt (depth + 1) (.node id) =
      some (settledType (operationType? (graph.node id).kind ((graph.node id).get .operator) left right)) := by
  rcases h.source id with hsame | ⟨-, found, -, hgiven, hfound⟩
  · rw [typeAt_node, hsame, hsource, h.kind id, h.get id (by decide : Field.operator ≠ _) (by decide), h.operandTypes id,
      hoperands]
    rfl
  · rw [typeAt_of_given hgiven, hfound.unique htype]

/-- A note of the type that a node has changes no type. -/
theorem Noted.of_note {type : String} (hkind : (graph.node id).kind.isNoted) (hvalid : type ≠ TypeName.invalid)
    (htype : graph.HasType (.node id) (.text type)) :
    graph.Noted (graph.setField id (graph.node id).kind.noteField (.text type)) where
  size := Array.size_modify
  kind other := kind_setField graph id other _ _
  get? other field hcached hown := by
    refine get?_setField_of_ne graph _ (.inr fun heq => ?_)
    rw [heq] at hcached hown
    unfold Kind.noteField at hcached hown
    split at hcached <;> simp_all
  source other := by
    rw [node_setField]
    split
    case isFalse => exact .inl rfl
    case isTrue hsame =>
      rw [hsame.1, Node.typeSource_set_note hkind]
      have hsource := Node.typeSource_of_isNoted hkind
      unfold Node.noteOr at hsource
      split at hsource
      case isTrue => exact .inr ⟨hsource, type, hvalid, rfl, htype⟩
      case isFalse =>
        rw [hsource, ← htype.unique (hasType_of_given hsource)]
        exact .inl rfl

end Notes

end Graph

/-! ### Asking for a type -/

namespace Draft

variable {value : Value}

def typeOfRight (typeOf : Value → Action Value) (node : Node) : Action Value :=
  if node.kind = .unary then pure .null else typeOf (node.get .right)

/-- Keeps a note of the type of an operation, if it has one. -/
def note (id : NodeId) (kind : Kind) : Option String → Action Value
  | some type => do
      setField (.node id) kind.noteField (.text type)
      return .text type
  | none => return invalidType

/-- What is done to find the type of a node. -/
def typeStep (typeOf : Value → Action Value) (id : NodeId) (node : Node) : Action Value :=
  match node.typeSource with
  | .missing label => do throw ((← currentGraph).missing (.node id) label)
  | .given type => return type
  | .child value => typeOf value
  | .operands => do
      let left ← typeOf (node.get .left)
      let right ← typeOfRight typeOf node
      note id node.kind (operationType? node.kind (node.get .operator) left right)

theorem typeOfRight_of_ne {typeOf : Value → Action Value} {node : Node} (h : node.kind ≠ .unary) :
    typeOfRight typeOf node = typeOf (node.get .right) :=
  if_neg h

theorem note_ite {id : NodeId} {kind : Kind} {c : Prop} [Decidable c] {type : String} :
    note id kind (if c then some type else none) = if c then note id kind (some type) else note id kind none := by
  split <;> rfl

theorem note_signType {id : NodeId} {operator operand : Value} :
    note id .unary (signType? operator operand) =
      if operator.isText "!" then
        if operand.isText TypeName.boolean then note id .unary (some TypeName.boolean) else note id .unary none
      else if operator.isOneOf ["-", "+"] then
        match operand with
        | .text type => if isNumeric operand then note id .unary (some type) else note id .unary none
        | _ => note id .unary none
      else note id .unary none := by
  unfold signType?
  split
  · exact note_ite
  split
  · cases operand with
    | scalar word =>
        cases word with
        | text type => exact note_ite
        | _ => rfl
    | _ => rfl
  · rfl

theorem typeWithin_node (depth : Nat) (id : NodeId) (draft : Draft) :
    typeWithin (depth + 1) (.node id) draft = typeStep (typeWithin depth) id (draft.graph.node id) draft := by
  unfold typeStep Node.typeSource Node.noteOr
  have hgraph : currentGraph draft = .ok draft.graph draft := rfl
  show (currentGraph >>= _) draft = _
  show (EStateM.bind currentGraph _) draft = _
  simp only [EStateM.bind, hgraph, bind, pure]
  cases hkind : (draft.graph.node id).kind
  case method =>
    show (getField (.node id) .returnType >>= fun type => pure (Node.typeOrInvalid type)) draft = _
    dsimp only
    cases hget : (draft.graph.node id).get? .returnType with
    | none =>
      have hfield : getField (.node id) .returnType draft =
          .error (draft.graph.missing (.node id) Field.returnType.label) draft := by
        show (match (draft.graph.node id).get? .returnType with
          | some found => pure found
          | none => throw (draft.graph.missing (.node id) Field.returnType.label) : Action Value) draft = _
        rw [hget]
        rfl
      show EStateM.bind _ _ draft = _
      rw [EStateM.bind, hfield]
      rfl
    | some type =>
      have hfield : getField (.node id) .returnType draft = .ok type draft := getField_eq_ok.2 ⟨hget, rfl⟩
      show EStateM.bind _ _ draft = _
      rw [EStateM.bind, hfield]
      rfl
  case binary =>
    rw [typeOfRight_of_ne (by simp [hkind])]
    dsimp only
    split
    · refine congrFun (congrArg (EStateM.bind _) (funext fun left => congrArg (EStateM.bind _) (funext fun right => ?_))) draft
      simp only [operationType?]
      cases binaryType? ((draft.graph.node id).get .operator) left right <;> rfl
    · rfl
  case unary =>
    have hright : typeOfRight (typeWithin depth) (draft.graph.node id) = pure .null := if_pos hkind
    rw [hright]
    simp only [operationType?, note_signType]
    split <;> rfl
  case comparison | logical =>
    rw [typeOfRight_of_ne (by simp [hkind])]
    simp only [operationType?, note_ite]
    split <;> rfl
  case declaration | update | returning | argument =>
    dsimp only
    split <;> rfl
  all_goals rfl
/-- What is found by asking for a type: it is the type of the value, before as after, and only notes are left
behind. -/
def Answers (depth : Nat) (value : Value) (draft : Draft) : EStateM.Result Failure Draft Value → Prop
  | .ok type later => draft.graph.Noted later.graph ∧ later.journal = draft.journal ∧
      draft.graph.HasType value type ∧ later.graph.typeAt depth value = some type
  | .error failure later => failure.isOrdinary ∧ draft.graph.Noted later.graph ∧ later.journal = draft.journal

theorem Answers.of_noted {depth : Nat} {draft middle : Draft} {result : EStateM.Result Failure Draft Value}
    (h : Answers depth value middle result) (hnoted : draft.graph.Noted middle.graph)
    (hjournal : middle.journal = draft.journal) : Answers depth value draft result := by
  cases result with
  | ok type later => exact ⟨hnoted.trans h.1, h.2.1.trans hjournal, hnoted.hasType h.2.2.1, h.2.2.2⟩
  | error failure later => exact ⟨h.1, hnoted.trans h.2.1, h.2.2.trans hjournal⟩

section Operands

variable {depth : Nat} {id : NodeId} {draft : Draft}

theorem answers_note {kind : Kind} {type : Option String} (hkind : (draft.graph.node id).kind = kind)
    (hnoted : kind.isNoted) (hvalid : ∀ word, type = some word → word ≠ TypeName.invalid) (hbefore : draft.graph.HasType (.node id) (settledType type))
    (hafter : draft.graph.typeAt (depth + 1) (.node id) = some (settledType type)) :
    Answers (depth + 1) (.node id) draft (note id kind type draft) := by
  cases type with
  | none => exact ⟨.refl _, rfl, hbefore, hafter⟩
  | some type =>
      subst hkind
      have hstep := Graph.Noted.of_note hnoted (hvalid type rfl) hbefore
      exact ⟨hstep, rfl, hbefore, hstep.typeAt hafter⟩

theorem answers_typeOfRight (ih : ∀ value draft, Answers depth value draft (typeWithin depth value draft))
    (node : Node) (draft : Draft) : match typeOfRight (typeWithin depth) node draft with
      | .ok type later => draft.graph.Noted later.graph ∧ later.journal = draft.journal ∧
          (node.kind = .unary ∧ type = .null ∨ node.kind ≠ .unary ∧ draft.graph.HasType (node.get .right) type) ∧
          node.rightType (later.graph.typeAt depth) = some type
      | .error failure later => failure.isOrdinary ∧ draft.graph.Noted later.graph ∧ later.journal = draft.journal := by
  unfold typeOfRight Node.rightType
  by_cases hkind : node.kind = .unary
  · simp only [if_pos hkind]
    exact ⟨.refl _, rfl, .inl ⟨hkind, rfl⟩, rfl⟩
  · simp only [if_neg hkind]
    have hright := ih (node.get .right) draft
    cases hsecond : typeWithin depth (node.get .right) draft with
    | error failure later => rwa [hsecond] at hright
    | ok type later =>
        rw [hsecond] at hright
        obtain ⟨hnoted, hjournal, htype, hright⟩ := hright
        exact ⟨hnoted, hjournal, .inr ⟨hkind, htype⟩, hright⟩

theorem answers_operands (ih : ∀ value draft, Answers depth value draft (typeWithin depth value draft))
    (hsource : (draft.graph.node id).typeSource = .operands) :
    Answers (depth + 1) (.node id) draft (typeStep (typeWithin depth) id (draft.graph.node id) draft) := by
  simp only [typeStep, hsource]
  show Answers _ _ _ (EStateM.bind (typeWithin depth _) _ draft)
  have hleft := ih ((draft.graph.node id).get .left) draft
  unfold EStateM.bind
  cases hfirst : typeWithin depth ((draft.graph.node id).get .left) draft with
  | error failure later => rwa [hfirst] at hleft
  | ok left middle =>
      rw [hfirst] at hleft
      obtain ⟨hnoted, hjournal, htype, hleft⟩ := hleft
      have hright := answers_typeOfRight ih (draft.graph.node id) middle
      show Answers _ _ _ (EStateM.bind (typeOfRight _ _) _ middle)
      unfold EStateM.bind
      cases hsecond : typeOfRight (typeWithin depth) (draft.graph.node id) middle with
      | error failure later =>
          rw [hsecond] at hright
          obtain ⟨hordinary, hnoted', hjournal'⟩ := hright
          exact ⟨hordinary, hnoted.trans hnoted', hjournal'.trans hjournal⟩
      | ok right last =>
          rw [hsecond] at hright
          obtain ⟨hnoted', hjournal', htype', hright⟩ := hright
          have hboth := hnoted.trans hnoted'
          have htypes : (draft.graph.node id).operandTypes (last.graph.typeAt depth) = some (left, right) :=
            Node.operandTypes_eq_some.2 ⟨hnoted'.typeAt hleft, hright⟩
          have hhas : draft.graph.HasType (.node id) _ := .of_operands hsource htype
            (Graph.exists_rightType (htype'.imp_right fun h => ⟨h.1, hnoted.hasType h.2⟩))
          have hlast := (hnoted.trans hnoted').typeAt_operands hsource hhas htypes
          have hnote := answers_note ((hnoted.trans hnoted').kind id) (Node.isNoted_of_operands hsource)
            (fun _ => operationType?_ne_invalid) ⟨_, hlast⟩ hlast
          exact hnote.of_noted (hnoted.trans hnoted') (hjournal'.trans hjournal)

theorem answers_typeStep (ih : ∀ value draft, Answers depth value draft (typeWithin depth value draft)) :
    Answers (depth + 1) (.node id) draft (typeStep (typeWithin depth) id (draft.graph.node id) draft) := by
  cases hsource : (draft.graph.node id).typeSource with
  | missing label =>
      simp only [typeStep, hsource]
      exact ⟨rfl, .refl _, rfl⟩
  | given type =>
      simp only [typeStep, hsource]
      exact ⟨.refl _, rfl, Graph.hasType_of_given hsource, Graph.typeAt_of_given hsource⟩
  | child value =>
      simp only [typeStep, hsource]
      have hchild := ih value draft
      cases hvalue : typeWithin depth value draft with
      | error failure later => rwa [hvalue] at hchild
      | ok type later =>
          rw [hvalue] at hchild
          obtain ⟨hnoted, hjournal, htype, hfound⟩ := hchild
          refine ⟨hnoted, hjournal, .of_child hsource htype, ?_⟩
          have hsame : (later.graph.node id).typeSource = .child value := by
            rcases hnoted.source id with hsame | ⟨hoperands, -⟩
            · rw [hsame, hsource]
            · rw [hsource] at hoperands
              cases hoperands
          rw [Graph.typeAt_node, hsame]
          exact hfound
  | operands => exact answers_operands ih hsource

end Operands

theorem answers_typeWithin (depth : Nat) (value : Value) (draft : Draft) :
    Answers depth value draft (typeWithin depth value draft) := by
  induction depth generalizing value draft with
  | zero => exact ⟨rfl, .refl _, rfl⟩
  | succ depth ih =>
      have hother : ∀ value : Value, (∀ id, value ≠ .node id) →
          typeWithin (depth + 1) value draft = .error (draft.graph.missing value "evaluateType") draft := by
        intro value hvalue
        cases value with
        | node id => exact absurd rfl (hvalue id)
        | _ => rfl
      cases value with
      | node id =>
          rw [typeWithin_node]
          exact answers_typeStep ih
      | _ =>
          rw [hother _ (by simp)]
          exact ⟨rfl, .refl _, rfl⟩

theorem note_eq_ok (id : NodeId) (kind : Kind) (type : Option String) (draft : Draft) :
    ∃ later, note id kind type draft = .ok (settledType type) later := by
  cases type with
  | none => exact ⟨draft, rfl⟩
  | some type => exact ⟨_, rfl⟩

theorem typeWithin_of_typeAt {depth : Nat} {type : Value} {draft : Draft}
    (h : draft.graph.typeAt depth value = some type) : ∃ later, typeWithin depth value draft = .ok type later := by
  induction depth generalizing value type draft with
  | zero => cases h
  | succ depth ih =>
      obtain ⟨_, id, -, rfl⟩ := Graph.exists_of_typeAt h
      rw [Graph.typeAt_node] at h
      rw [typeWithin_node]
      cases hsource : (draft.graph.node id).typeSource with
      | missing label =>
          rw [hsource] at h
          cases h
      | given found =>
          rw [hsource] at h
          cases h
          simp only [typeStep, hsource]
          exact ⟨draft, rfl⟩
      | child child =>
          rw [hsource] at h
          simp only [typeStep, hsource]
          exact ih h
      | operands =>
          rw [hsource] at h
          obtain ⟨⟨left, right⟩, htypes, rfl⟩ := Option.map_eq_some_iff.1 h
          obtain ⟨hleft, hright⟩ := Node.operandTypes_eq_some.1 htypes
          obtain ⟨middle, hfirst⟩ := ih hleft
          have hanswers := answers_typeWithin depth ((draft.graph.node id).get .left) draft
          rw [hfirst] at hanswers
          obtain ⟨last, hsecond⟩ : ∃ last, typeOfRight (typeWithin depth) (draft.graph.node id) middle = .ok right last := by
            unfold Node.rightType at hright
            unfold typeOfRight
            split at hright
            case isTrue hunary =>
              rw [if_pos hunary]
              cases hright
              exact ⟨middle, rfl⟩
            case isFalse hbinary =>
              rw [if_neg hbinary]
              exact ih (hanswers.1.typeAt hright)
          obtain ⟨later, hnote⟩ := note_eq_ok id (draft.graph.node id).kind
            (operationType? (draft.graph.node id).kind ((draft.graph.node id).get .operator) left right) last
          simp only [typeStep, hsource]
          exact ⟨later, bind_eq_ok.2 ⟨left, middle, hfirst, bind_eq_ok.2 ⟨right, last, hsecond, hnote⟩⟩⟩

/-- Only notes are left behind. -/
def noting : Rule Draft where
  step draft later := draft.graph.Noted later.graph ∧ later.journal = draft.journal
  stop failure draft later := failure.isOrdinary ∧ draft.graph.Noted later.graph ∧ later.journal = draft.journal
  refl _ := ⟨.refl _, rfl⟩
  trans h h' := ⟨h.1.trans h'.1, h'.2.trans h.2⟩
  stop_of_step h h' := ⟨h'.1, h.1.trans h'.2.1, h'.2.2.trans h.2⟩
  step_of_stop _ h := h.2

instance : Obeys noting (typeOf value) := by
  refine ⟨fun draft => ?_⟩
  have hanswers := answers_typeWithin walkDepth value draft
  unfold typeOf
  cases htype : typeWithin walkDepth value draft with
  | ok type later =>
      rw [htype] at hanswers
      exact ⟨hanswers.1, hanswers.2.1⟩
  | error failure later =>
      rw [htype] at hanswers
      exact hanswers

end Draft

end Scriptlet
