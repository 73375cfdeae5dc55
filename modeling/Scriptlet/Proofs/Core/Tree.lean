import Scriptlet.Proofs.Core.Program
import Scriptlet.Proofs.Node

/-!
How a program stands in a graph of nodes, and what its nodes come to know of types.

The shape of a program never changes.  What changes are notes: the type and the known value of a
variable at each reference, and the type of each operation.
-/

namespace Scriptlet.Core

/-- A node of a kind with given attributes, and perhaps more.  It is not the name of a type. -/
structure Shown (graph : Graph) (id : NodeId) (kind : Kind) (fields : List (Field × Value)) : Prop where
  kind : (graph.node id).kind = kind
  fields : ∀ entry ∈ fields, (graph.node id).get? entry.1 = some entry.2
  ordinary : (graph.node id).get? .isTypeName = none

namespace Expr

def id : Expr → NodeId
  | int id _ | bool id _ | var id _ | arith id .. | neg id _ | not id _ | compare id .. | logic id .. => id

def value (e : Expr) : Value :=
  .node e.id

def ids : Expr → List NodeId
  | int id _ | bool id _ | var id _ => [id]
  | neg id operand | not id operand => id :: operand.ids
  | arith id _ left right | compare id _ left right | logic id _ left right =>
      id :: (left.ids ++ right.ids)

def Stands (graph : Graph) : Expr → Prop
  | int id value => Shown graph id .integer [(.value, .int value)]
  | bool id value => Shown graph id .boolean [(.value, .text (if value then "true" else "false"))]
  | var id name => Shown graph id .reference [(.name, .text name)]
  | arith id operator left right =>
      Shown graph id .binary
        [(.left, left.value), (.operator, .text operator.symbol), (.right, right.value)] ∧
      left.Stands graph ∧ right.Stands graph
  | neg id operand =>
      Shown graph id .unary [(.operator, .text "-"), (.left, operand.value)] ∧ operand.Stands graph
  | not id operand =>
      Shown graph id .unary [(.operator, .text "!"), (.left, operand.value)] ∧ operand.Stands graph
  | compare id relation left right =>
      Shown graph id .comparison
        [(.left, left.value), (.operator, .text (relationSymbol relation)), (.right, right.value)] ∧
      left.Stands graph ∧ right.Stands graph
  | logic id operator left right =>
      Shown graph id .logical
        [(.left, left.value), (.operator, .text operator.symbol), (.right, right.value)] ∧
      left.Stands graph ∧ right.Stands graph

end Expr

def Block.value : Block → Value
  | .mk id _ => .node id

def Stmt.value : Stmt → Value
  | .declare id .. | .assign id .. | .print id .. | .cond id .. | .loop id .. | .breakOut id => .node id
  | .block body => body.value

def Stmts.values : Stmts → List Value
  | .nil => []
  | .cons head tail => head.value :: tail.values

def Branches.pairs : Branches → List Value
  | .none | .otherwise _ => []
  | .elif condition body rest => .tuple [condition.value, body.value] :: rest.pairs

def Branches.last : Branches → Value
  | .none => .null
  | .otherwise body => body.value
  | .elif _ _ rest => rest.last

mutual

def Stmt.Stands (graph : Graph) : Stmt → Prop
  | .declare id name value =>
      Shown graph id .declaration [(.name, .text name), (.value, value.value), (.declaredType, .null)] ∧
      value.Stands graph
  | .assign id name value =>
      Shown graph id .update [(.name, .text name), (.value, value.value)] ∧ value.Stands graph
  | .print id argument value =>
      Shown graph id .call [(.name, .text "print"), (.args, .list [.node argument])] ∧
      Shown graph argument .argument [(.value, value.value)] ∧ value.Stands graph
  | .block body => body.Stands graph
  | .cond id condition body rest =>
      Shown graph id .conditional
        [(.comparison, condition.value), (.block, body.value), (.elifNodes, .list rest.pairs),
          (.elseBlock, rest.last)] ∧
      condition.Stands graph ∧ body.Stands graph ∧ rest.Stands graph
  | .loop id condition body =>
      Shown graph id .loop [(.comparison, condition.value), (.block, body.value)] ∧
      condition.Stands graph ∧ body.Stands graph
  | .breakOut id => Shown graph id .breaking []

def Block.Stands (graph : Graph) : Block → Prop
  | .mk id statements =>
      Shown graph id .block [(.statements, .list statements.values)] ∧ statements.Stands graph

def Stmts.Stands (graph : Graph) : Stmts → Prop
  | .nil => True
  | .cons head tail => head.Stands graph ∧ tail.Stands graph

def Branches.Stands (graph : Graph) : Branches → Prop
  | .none => True
  | .otherwise body => body.Stands graph
  | .elif condition body rest => condition.Stands graph ∧ body.Stands graph ∧ rest.Stands graph

end

mutual

/-- The nodes of all expressions of a statement. -/
def Stmt.ids : Stmt → List NodeId
  | .declare _ _ value | .assign _ _ value | .print _ _ value => value.ids
  | .block body => body.ids
  | .cond _ condition body rest => condition.ids ++ body.ids ++ rest.ids
  | .loop _ condition body => condition.ids ++ body.ids
  | .breakOut _ => []

def Block.ids : Block → List NodeId
  | .mk _ statements => statements.ids

def Stmts.ids : Stmts → List NodeId
  | .nil => []
  | .cons head tail => head.ids ++ tail.ids

def Branches.ids : Branches → List NodeId
  | .none => []
  | .otherwise body => body.ids
  | .elif condition body rest => condition.ids ++ body.ids ++ rest.ids

end

/-! ### Notes -/

/-- The attributes of a kind of nodes that are notes. -/
def IsNote : Kind → Field → Prop
  | .reference, field => field = .type ∨ field = .value
  | .call, field => field = .type
  | .binary, field => field = .cachedType
  | .unary, field | .comparison, field | .logical, field => field = .ownCachedType
  | _, _ => False

/-- A value that is not the name of a type. -/
def IsOrdinary (graph : Graph) (value : Value) : Prop :=
  ∃ id, value = .node id ∧ (graph.node id).kind ≠ .plain ∧ (graph.node id).get? .isTypeName = none

/-- The name of a type, and what stands for no type. -/
def typeValue : Option Ty → Value
  | some .int => .text TypeName.integer
  | some .bool => .text TypeName.boolean
  | none => .text TypeName.invalid

/-- What a note may say. -/
def MaySay (graph : Graph) (node : Node) (field : Field) (value : Value) : Prop :=
  match node.kind, field with
  | .reference, .type => ∃ type, value = typeValue type
  | .reference, .value => IsOrdinary graph value
  | .binary, _ => value = typeValue (some .int)
  | .unary, _ => value = typeValue (some (if (node.get .operator).isText "!" then .bool else .int))
  | .comparison, _ | .logical, _ => value = typeValue (some .bool)
  | _, _ => True

/-- All notes of a node are empty or say what they may. -/
def Noted (graph : Graph) (id : NodeId) : Prop :=
  ∀ field value, IsNote (graph.node id).kind field → (graph.node id).get? field = some value →
    value = .null ∨ MaySay graph (graph.node id) field value

/-- Only notes have changed, and to what they may say. -/
structure Retyped (graph graph' : Graph) : Prop where
  kind : ∀ id, (graph.node id).kind ≠ .plain → (graph'.node id).kind = (graph.node id).kind
  kept : ∀ id field, (graph.node id).kind ≠ .plain → ¬ IsNote (graph.node id).kind field →
    (graph'.node id).get? field = (graph.node id).get? field
  noted : ∀ id, (graph.node id).kind ≠ .plain → Noted graph id → Noted graph' id

section Notes

variable {graph graph' : Graph} {id : NodeId} {kind : Kind} {field : Field} {value : Value}
  {fields : List (Field × Value)}

theorem not_isNote_operator : ¬ IsNote kind .operator := by
  cases kind <;> simp [IsNote]

theorem not_isNote_isTypeName : ¬ IsNote kind .isTypeName := by
  cases kind <;> simp [IsNote]

theorem Retyped.refl (graph : Graph) : Retyped graph graph :=
  ⟨fun _ _ => rfl, fun _ _ _ _ => rfl, fun _ _ h => h⟩

theorem Retyped.trans {a b c : Graph} (hab : Retyped a b) (hbc : Retyped b c) : Retyped a c := by
  have hplain : ∀ id, (a.node id).kind ≠ .plain → (b.node id).kind ≠ .plain := by
    intro id h
    rwa [hab.kind id h]
  refine ⟨fun id h => ?_, fun id field h hnote => ?_, fun id h hnoted => ?_⟩
  · rw [hbc.kind id (hplain id h), hab.kind id h]
  · rw [hbc.kept id field (hplain id h) (by rwa [hab.kind id h]), hab.kept id field h hnote]
  · exact hbc.noted id (hplain id h) (hab.noted id h hnoted)

theorem Shown.get_eq {found : Value} (h : Shown graph id kind fields)
    (hget : (graph.node id).get? field = some found) (hmem : (field, value) ∈ fields := by simp) : found = value :=
  Option.some.inj (hget.symm.trans (h.fields _ hmem))

theorem Shown.operands {left operator right : Value}
    (h : Shown graph id kind [(.left, left), (.operator, operator), (.right, right)]) :
    (graph.node id).get? .left = some left ∧ (graph.node id).get? .operator = some operator ∧
      (graph.node id).get? .right = some right :=
  ⟨h.fields (.left, left) (by simp), h.fields (.operator, operator) (by simp),
    h.fields (.right, right) (by simp)⟩

theorem Shown.operand {operator operand : Value}
    (h : Shown graph id kind [(.operator, operator), (.left, operand)]) :
    (graph.node id).get? .operator = some operator ∧ (graph.node id).get? .left = some operand :=
  ⟨h.fields (.operator, operator) (by simp), h.fields (.left, operand) (by simp)⟩

theorem Retyped.shown (h : Retyped graph graph') (hshown : Shown graph id kind fields) (hplain : kind ≠ .plain := by simp)
    (hnotes : ∀ entry ∈ fields, ¬ IsNote kind entry.1 := by simp [IsNote]) : Shown graph' id kind fields := by
  obtain ⟨rfl, hfields, hordinary⟩ := hshown
  refine ⟨h.kind id hplain, fun entry hentry => ?_, ?_⟩
  · rw [h.kept id entry.1 hplain (hnotes entry hentry), hfields entry hentry]
  · rw [h.kept id .isTypeName hplain not_isNote_isTypeName, hordinary]

theorem Retyped.isOrdinary (h : Retyped graph graph') (hordinary : IsOrdinary graph value) :
    IsOrdinary graph' value := by
  obtain ⟨id, rfl, hplain, hnone⟩ := hordinary
  refine ⟨id, rfl, ?_, ?_⟩
  · rwa [h.kind id hplain]
  · rw [h.kept id .isTypeName hplain not_isNote_isTypeName, hnone]

theorem Shown.isOrdinary (h : Shown graph id kind fields) (hplain : kind ≠ .plain) :
    IsOrdinary graph (.node id) :=
  ⟨id, rfl, by rwa [h.kind], h.ordinary⟩

/-- What a note may say depends on little. -/
theorem MaySay.congr {node node' : Node} (h : MaySay graph node field value)
    (hkind : node'.kind = node.kind) (hoperator : node'.get .operator = node.get .operator)
    (hordinary : IsOrdinary graph value → IsOrdinary graph' value) : MaySay graph' node' field value := by
  unfold MaySay at h ⊢
  rw [hkind, hoperator]
  split at h
  case h_2 => exact hordinary h
  all_goals exact h

/-- A new note that says what it may. -/
theorem retyped_setField (hnote : IsNote (graph.node id).kind field)
    (hsay : MaySay graph (graph.node id) field value) :
    Retyped graph (graph.setField id field value) := by
  have hkept : ∀ other another, ¬ IsNote (graph.node other).kind another →
      ((graph.setField id field value).node other).get? another = (graph.node other).get? another := by
    intro other another hnone
    refine graph.get?_setField_of_ne value ?_
    by_contra hsame
    obtain ⟨rfl, rfl⟩ := not_or.1 hsame |>.imp not_not.1 not_not.1
    exact hnone hnote
  have hmaySay : ∀ other another content, MaySay graph (graph.node other) another content →
      MaySay (graph.setField id field value) ((graph.setField id field value).node other) another
        content := by
    intro other another content h
    refine h.congr (Graph.kind_setField ..) ?_ ?_
    · simp only [Node.get, hkept other .operator not_isNote_operator]
    · rintro ⟨node, rfl, hplain, hnone⟩
      exact ⟨node, rfl, by rwa [Graph.kind_setField],
        (hkept node .isTypeName not_isNote_isTypeName).trans hnone⟩
  refine ⟨fun other _ => Graph.kind_setField .., fun other another _ => hkept other another, ?_⟩
  intro other hplain hnoted another content hisNote hget
  rw [Graph.kind_setField] at hisNote
  by_cases hsame : other = id ∧ another = field
  · obtain ⟨rfl, rfl⟩ := hsame
    rw [Graph.get?_setField_self graph another value hplain] at hget
    obtain rfl := Option.some.inj hget
    exact Or.inr (hmaySay other another value hsay)
  · rw [Graph.get?_setField_of_ne graph value (not_and_or.1 hsame)] at hget
    exact (hnoted another content hisNote hget).imp_right (hmaySay other another content)

end Notes

theorem Expr.Stands.retyped {graph graph' : Graph} (h : Retyped graph graph') :
    ∀ {e : Expr}, e.Stands graph → e.Stands graph'
  | .int .., hstands | .bool .., hstands | .var .., hstands => h.shown hstands
  | .neg .., ⟨hshown, hoperand⟩ | .not .., ⟨hshown, hoperand⟩ => ⟨h.shown hshown, hoperand.retyped h⟩
  | .arith .., ⟨hshown, hleft, hright⟩ | .compare .., ⟨hshown, hleft, hright⟩
  | .logic .., ⟨hshown, hleft, hright⟩ =>
      ⟨h.shown hshown, hleft.retyped h, hright.retyped h⟩

end Scriptlet.Core
