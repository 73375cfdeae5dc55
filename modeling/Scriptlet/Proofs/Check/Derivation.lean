import Scriptlet.Proofs.Grammar.StatementLayout
import Scriptlet.Proofs.TypeNotes

/-!
Graphs that the analysis derives from a graph that was read.

The analysis makes new nodes, puts some of them in the place of operands, and notes what it finds out.
All else stays as it was read.  What it does below one part of a program changes the type of nothing in
a part that was read before.
-/

namespace Scriptlet

variable {kind : Kind} {field : Field}

/-- Kinds of nodes that the analysis makes. -/
def Kind.isLate : Kind → Bool
  | .double | .string | .concat | .parameter => true
  | _ => false

/-- Kinds of nodes that take the place of others. -/
def Kind.isSubstitute : Kind → Bool
  | .double | .concat => true
  | _ => false

/-- Attributes that the analysis leaves alone at nodes of a kind that were read. -/
def Kind.keeps (kind : Kind) : Field → Bool
  | .cachedType | .ownCachedType | .scope | .transformed | .receiverType => false
  | .receiver | .arguments | .left | .right => false
  | .value => kind == .call
  | .type => kind != .reference && kind != .call
  | .returnType => kind != .method
  | _ => true

/-- The nodes that the analysis makes have types of their own. -/
theorem Node.regards_of_isLate {node : Node} (h : node.kind.isLate) : node.regards = [] := by
  unfold regards typeSource
  cases hkind : node.kind
  case declaration | update | returning | argument | method | binary | unary | comparison | logical =>
    simp [hkind, Kind.isLate] at h
  all_goals rfl

/-- An attribute that holds an operand: the value of a reference is only a note. -/
def Kind.hasOperand (kind : Kind) (field : Field) : Bool :=
  Draft.operandFields.contains field && !(kind == .reference && field == .value)

theorem Kind.keeps_or_hasOperand (kind : Kind) : ∀ field ∈ kind.links, kind.keeps field ∨ kind.hasOperand field := by
  cases kind <;> decide

theorem Kind.hasOperand_of_ne (hfield : field ∈ Draft.operandFields) (h : kind ≠ .reference ∨ field ≠ .value) :
    kind.hasOperand field := by
  unfold hasOperand
  rw [List.contains_iff_mem.2 hfield]
  rcases h with h | h <;> simp [h]

theorem Kind.mem_of_hasOperand (h : kind.hasOperand field) : field ∈ Draft.operandFields := by
  unfold hasOperand at h
  rw [Bool.and_eq_true] at h
  exact List.contains_iff_mem.1 h.1

theorem Kind.eq_of_keeps_operand (h : field ∈ Draft.operandFields) (hkeeps : kind.keeps field) :
    kind = .call ∧ field = .value := by
  simp only [Draft.operandFields, List.mem_cons, List.not_mem_nil, or_false] at h
  rcases h with rfl | rfl | rfl | rfl | rfl <;> simp_all [keeps]

namespace Graph

/-- A value that stands somewhere in the program: the names of types that the analysis makes do not. -/
def Visible (origin graph : Graph) (value : Value) : Prop :=
  ∀ id : Nat, value = .node id → id < origin.nodes.size ∨ (graph.node id).kind.isSubstitute

/-- What became of an operand that was read.  A call stays where it is, and there is no operand where there was none. -/
structure Replaced (origin graph : Graph) (old new : Value) : Prop where
  null : old = .null ↔ new = .null
  mentions : ∀ child : Nat, new.Mentions child → old.Mentions child ∨ origin.nodes.size ≤ child
  visible : origin.Visible graph new
  call : ∀ id, old = .node id → (origin.node id).kind = .call → new = old

end Graph

/-- A node that the analysis made. -/
structure Node.IsLate (node : Node) : Prop where
  kind : node.kind.isLate
  left : node.get? .left = none
  right : node.get? .right = none
  isTypeName : node.kind.isSubstitute → node.get .isTypeName = .null
  parameter : node.kind = .parameter → ∃ type, node.get? .type = some (.text type)

namespace Graph

structure Derived (origin graph : Graph) : Prop where
  size_le : origin.nodes.size ≤ graph.nodes.size
  kind : ∀ id : Nat, id < origin.nodes.size → (graph.node id).kind = (origin.node id).kind
  kept : ∀ (id : Nat) (field : Field), id < origin.nodes.size → (origin.node id).kind.keeps field →
    (graph.node id).get? field = (origin.node id).get? field
  operand : ∀ (id : Nat) (field : Field), id < origin.nodes.size → (origin.node id).kind.hasOperand field →
    origin.Replaced graph ((origin.node id).get field) ((graph.node id).get field)
  reference : ∀ id : Nat, id < origin.nodes.size → (origin.node id).kind = .reference →
    origin.Visible graph ((graph.node id).get .value)
  late : ∀ id : Nat, origin.nodes.size ≤ id → id < graph.nodes.size → (graph.node id).IsLate

section Basics

variable {origin graph changed : Graph} {root value : Value} {id child : Nat} {field : Field}

theorem visible_scalar {scalar : Scalar} : origin.Visible graph (.scalar scalar) :=
  nofun

theorem Visible.mono (h : origin.Visible graph value)
    (hkind : ∀ id : Nat, (graph.node id).kind.isSubstitute → (changed.node id).kind.isSubstitute) :
    origin.Visible changed value :=
  fun id hid => (h id hid).imp_right (hkind id)

theorem Replaced.mono {old new : Value} (h : origin.Replaced graph old new)
    (hkind : ∀ id : Nat, (graph.node id).kind.isSubstitute → (changed.node id).kind.isSubstitute) :
    origin.Replaced changed old new :=
  { h with visible := h.visible.mono hkind }

/-- In a graph that was read, other nodes are held only as nodes below. -/
theorem WellLaid.below_of_mentions (h : origin.WellLaid root) (hid : id < origin.nodes.size)
    (hfield : field ∈ Node.holders) (hchild : ((origin.node id).get field).Mentions child) : origin.Below id child := by
  have hmarks := h.unmarked id hid
  unfold Node.isUnmarked at hmarks
  rw [Bool.and_eq_true, List.all_eq_true] at hmarks
  have hholds := hmarks.2 field hfield
  rw [Bool.or_eq_true] at hholds
  rcases hholds with hlink | hscalar
  · exact ⟨field, List.contains_iff_mem.1 hlink, hchild⟩
  · cases hvalue : (origin.node id).get field with
    | scalar scalar =>
        rw [hvalue] at hchild
        exact absurd hchild Value.not_mentions_scalar
    | _ =>
        rw [hvalue] at hscalar
        cases hscalar

theorem mem_holders_of_operand (h : field ∈ Draft.operandFields) : field ∈ Node.holders := by
  revert field
  decide

/-- Operands of nodes that were read were read as well. -/
theorem WellLaid.lt_of_operand (h : origin.WellLaid root) (hid : id < origin.nodes.size)
    (hfield : field ∈ Draft.operandFields) (hchild : (origin.node id).get field = .node child) :
    child < origin.nodes.size := by
  have hbelow : origin.Below id child :=
    h.below_of_mentions hid (mem_holders_of_operand hfield) (by rw [hchild]; exact .node)
  exact (h.closed id child (Nat.zero_le _) hid hbelow).2

theorem WellLaid.visible (h : origin.WellLaid root) (hid : id < origin.nodes.size) (hfield : field ∈ Draft.operandFields) :
    origin.Visible graph ((origin.node id).get field) :=
  fun _ hchild => .inl (h.lt_of_operand hid hfield hchild)

theorem WellLaid.derived (h : origin.WellLaid root) : origin.Derived origin where
  size_le := le_refl _
  kind _ _ := rfl
  kept _ _ _ _ := rfl
  operand id field hid hfield :=
    ⟨Iff.rfl, fun _ => .inl, h.visible hid (Kind.mem_of_hasOperand hfield), fun _ _ _ => rfl⟩
  reference id hid _ := h.visible hid (by decide)
  late id hlow hhigh := absurd hhigh (by omega)

end Basics

namespace Derived

variable {origin graph changed : Graph} {root value : Value} {id child : Nat} {field : Field}

theorem get_of_keeps (h : origin.Derived graph) (hid : id < origin.nodes.size)
    (hfield : (origin.node id).kind.keeps field) : (graph.node id).get field = (origin.node id).get field := by
  rw [Node.get, h.kept id field hid hfield, ← Node.get]

/-- Nodes of a kind that the analysis does not make were read. -/
theorem lt_of_kind (h : origin.Derived graph) {kind : Kind} (hkind : (graph.node id).kind = kind)
    (hlate : kind.isLate = false) (hplain : kind ≠ .plain) : id < origin.nodes.size := by
  by_contra hge
  have hmade := (h.late id (Nat.le_of_not_lt hge) (lt_size_of_kind (hkind ▸ hplain))).kind
  rw [hkind, hlate] at hmade
  exact Bool.false_ne_true hmade

theorem value_of_call (h : origin.Derived graph) (hlaid : origin.WellLaid root) (hkind : (graph.node id).kind = .call) :
    (graph.node id).get? .value = none := by
  have hid := h.lt_of_kind hkind rfl (by decide)
  rw [h.kind id hid] at hkind
  obtain ⟨arguments, hcall⟩ := (hlaid.laid id hid (by simp [hkind])).call hkind
  rw [h.kept id .value hid (by rw [hkind]; rfl), hcall.value]

theorem not_keeps_of_operand (h : origin.Derived graph) (hlaid : origin.WellLaid root) (hid : id < origin.nodes.size)
    (hfield : field ∈ Draft.operandFields) (hvalue : (graph.node id).get? field = some value) :
    ¬ (origin.node id).kind.keeps field := by
  intro hkeeps
  obtain ⟨hkind, rfl⟩ := Kind.eq_of_keeps_operand hfield hkeeps
  rw [h.value_of_call hlaid ((h.kind id hid).trans hkind)] at hvalue
  cases hvalue

/-- Operands stand below the node, or they were made by the analysis. -/
theorem below_of_operand (h : origin.Derived graph) (hlaid : origin.WellLaid root) (hid : id < origin.nodes.size)
    (hfield : (origin.node id).kind.hasOperand field) (hchild : ((graph.node id).get field).Mentions child) :
    origin.Below id child ∨ origin.nodes.size ≤ child :=
  ((h.operand id field hid hfield).mentions child hchild).imp_left
    (hlaid.below_of_mentions hid (mem_holders_of_operand (Kind.mem_of_hasOperand hfield)))

theorem below_of_link (h : origin.Derived graph) (hlaid : origin.WellLaid root) (hid : id < origin.nodes.size)
    (hfield : field ∈ (origin.node id).kind.links) (hchild : ((graph.node id).get field).Mentions child) :
    origin.Below id child ∨ origin.nodes.size ≤ child := by
  rcases Kind.keeps_or_hasOperand _ field hfield with hkeeps | hoperand
  · rw [h.get_of_keeps hid hkeeps] at hchild
    exact .inl ⟨field, hfield, hchild⟩
  · exact h.below_of_operand hlaid hid hoperand hchild

theorem lt_size_of_isSubstitute (h : (graph.node id).kind.isSubstitute) : id < graph.nodes.size := by
  refine lt_size_of_kind fun heq => ?_
  rw [heq] at h
  cases h

theorem noted (h : origin.Derived graph) (hnoted : graph.Noted changed) : origin.Derived changed := by
  have hkind : ∀ id : Nat, (graph.node id).kind.isSubstitute → (changed.node id).kind.isSubstitute :=
    fun id hid => by rwa [hnoted.kind id]
  refine ⟨?_, fun id hid => ?_, fun id field hid hfield => ?_, fun id field hid hfield => ?_, fun id hid href => ?_,
    fun id hlow hhigh => ?_⟩
  · rw [hnoted.size]
    exact h.size_le
  · rw [hnoted.kind, h.kind id hid]
  · rw [hnoted.get? id field, h.kept id field hid hfield]
    all_goals
      rintro rfl
      cases hfield
  · rw [hnoted.get id]
    · exact (h.operand id field hid hfield).mono hkind
    all_goals
      rintro rfl
      exact absurd (Kind.mem_of_hasOperand hfield) (by decide)
  · rw [hnoted.get id (by decide) (by decide)]
    exact (h.reference id hid href).mono hkind
  · rw [hnoted.size] at hhigh
    obtain ⟨hlate, hleft, hright, hname, htype⟩ := h.late id hlow hhigh
    refine ⟨?_, ?_, ?_, ?_, ?_⟩
    · rwa [hnoted.kind]
    · rwa [hnoted.get? id _ (by decide) (by decide)]
    · rwa [hnoted.get? id _ (by decide) (by decide)]
    · rwa [hnoted.kind, hnoted.get id (by decide) (by decide)]
    · rwa [hnoted.kind, hnoted.get? id _ (by decide) (by decide)]

theorem get_setField (graph : Graph) (id other : Nat) (field another : Field) (value : Value) :
    ((graph.setField id field value).node other).get another =
      if (other = id ∧ id < graph.nodes.size) ∧ another = field then value else (graph.node other).get another := by
  rw [node_setField]
  by_cases hid : other = id ∧ id < graph.nodes.size
  · rw [if_pos hid, Node.get, Node.get?_set]
    by_cases hfield : another = field <;> simp [hid, hfield, Node.get]
  · simp [hid]

theorem set (h : origin.Derived graph) (hkeeps : ¬ (origin.node id).kind.keeps field) (hid : id < origin.nodes.size)
    (hoperand : (origin.node id).kind.hasOperand field → origin.Replaced graph ((origin.node id).get field) value)
    (hreference : (origin.node id).kind = .reference → field = .value → origin.Visible graph value) :
    origin.Derived (graph.setField id field value) := by
  have hkind : ∀ other : Nat, (graph.node other).kind.isSubstitute →
      ((graph.setField id field value).node other).kind.isSubstitute :=
    fun other hother => by rwa [kind_setField]
  have hsize : (graph.setField id field value).nodes.size = graph.nodes.size := Array.size_modify
  refine ⟨?_, fun other hother => ?_, fun other another hother hanother => ?_, fun other another hother hanother => ?_,
    fun other hother href => ?_, fun other hlow hhigh => ?_⟩
  · rw [hsize]
    exact h.size_le
  · rw [kind_setField, h.kind other hother]
  · rw [get?_setField_of_ne, h.kept other another hother hanother]
    by_contra hboth
    push Not at hboth
    obtain ⟨rfl, rfl⟩ := hboth
    exact hkeeps hanother
  · rw [get_setField]
    split
    case isTrue hsame =>
      obtain ⟨⟨rfl, -⟩, rfl⟩ := hsame
      exact (hoperand hanother).mono hkind
    case isFalse => exact (h.operand other another hother hanother).mono hkind
  · rw [get_setField]
    split
    case isTrue hsame =>
      obtain ⟨⟨rfl, -⟩, rfl⟩ := hsame
      exact (hreference href rfl).mono hkind
    case isFalse => exact (h.reference other hother href).mono hkind
  · rw [hsize] at hhigh
    have hne : other ≠ id := by omega
    rw [node_setField, if_neg fun hsame => hne hsame.1]
    exact h.late other hlow hhigh

theorem set_late (h : origin.Derived graph) (hid : origin.nodes.size ≤ id)
    (hfield : field ∉ [Field.left, .right, .isTypeName, .type]) : origin.Derived (graph.setField id field value) := by
  have hkind : ∀ other : Nat, (graph.node other).kind.isSubstitute →
      ((graph.setField id field value).node other).kind.isSubstitute :=
    fun other hother => by rwa [kind_setField]
  have hsize : (graph.setField id field value).nodes.size = graph.nodes.size := Array.size_modify
  have hold : ∀ other : Nat, other < origin.nodes.size →
      (graph.setField id field value).node other = graph.node other := by
    intro other hother
    have hne : other ≠ id := by omega
    rw [node_setField, if_neg fun hsame => hne hsame.1]
  have hget? : ∀ (other : Nat) another, another ∈ [Field.left, .right, .isTypeName, .type] →
      ((graph.setField id field value).node other).get? another = (graph.node other).get? another :=
    fun other another hmem => get?_setField_of_ne graph value (.inr fun heq => hfield (heq ▸ hmem))
  refine ⟨?_, fun other hother => ?_, fun other another hother hanother => ?_, fun other another hother hanother => ?_,
    fun other hother href => ?_, fun other hlow hhigh => ?_⟩
  · rw [hsize]
    exact h.size_le
  · rw [hold other hother, h.kind other hother]
  · rw [hold other hother, h.kept other another hother hanother]
  · rw [hold other hother]
    exact (h.operand other another hother hanother).mono hkind
  · rw [hold other hother]
    exact (h.reference other hother href).mono hkind
  · rw [hsize] at hhigh
    obtain ⟨hlate, hleft, hright, hname, htype⟩ := h.late other hlow hhigh
    refine ⟨?_, ?_, ?_, ?_, ?_⟩
    · rwa [kind_setField]
    · rw [hget? other _ (by decide), hleft]
    · rw [hget? other _ (by decide), hright]
    · rwa [kind_setField, Node.get, hget? other _ (by decide), ← Node.get]
    · rwa [kind_setField, hget? other _ (by decide)]

theorem add (h : origin.Derived graph) {node : Node} (hnode : node.IsLate) : origin.Derived (graph.add node).2 := by
  have hsize : (graph.add node).2.nodes.size = graph.nodes.size + 1 := Array.size_push _
  have hold : ∀ other : Nat, other < graph.nodes.size → (graph.add node).2.node other = graph.node other := by
    intro other hother
    rw [node_add, if_neg (Nat.ne_of_lt hother)]
  have hkind : ∀ other : Nat, (graph.node other).kind.isSubstitute →
      ((graph.add node).2.node other).kind.isSubstitute :=
    fun other hother => by rwa [hold other (lt_size_of_isSubstitute hother)]
  have hle := h.size_le
  refine ⟨?_, fun other hother => ?_, fun other another hother hanother => ?_, fun other another hother hanother => ?_,
    fun other hother href => ?_, fun other hlow hhigh => ?_⟩
  · omega
  · rw [hold other (by omega), h.kind other hother]
  · rw [hold other (by omega), h.kept other another hother hanother]
  · rw [hold other (by omega)]
    exact (h.operand other another hother hanother).mono hkind
  · rw [hold other (by omega)]
    exact (h.reference other hother href).mono hkind
  · by_cases hother : other = graph.nodes.size
    · rw [node_add, if_pos hother]
      exact hnode
    · rw [hold other (by omega)]
      exact h.late other hlow (by omega)

end Derived

/-! ### Regions that are spared -/

/-- Types that are known in a region are still known, and parameters keep their types. -/
structure Spares (origin : Graph) (low high : Nat) (graph changed : Graph) : Prop where
  size_le : graph.nodes.size ≤ changed.nodes.size
  kind : ∀ id : Nat, id < graph.nodes.size → (changed.node id).kind = (graph.node id).kind
  parameter : ∀ id : Nat, origin.nodes.size ≤ id → id < graph.nodes.size → (graph.node id).kind = .parameter →
    (changed.node id).get .type = (graph.node id).get .type
  typeAt : ∀ (id depth : Nat) (type : Value), low ≤ id → id < high → graph.typeAt depth (.node id) = some type →
    changed.typeAt depth (.node id) = some type

namespace Spares

variable {origin graph changed later : Graph} {low high : Nat} {root value : Value} {id : Nat} {field : Field}

theorem refl (origin graph : Graph) (low high : Nat) : Spares origin low high graph graph :=
  ⟨le_refl _, fun _ _ => rfl, fun _ _ _ _ => rfl, fun _ _ _ _ _ h => h⟩

theorem trans (h : Spares origin low high graph changed) (h' : Spares origin low high changed later) :
    Spares origin low high graph later where
  size_le := h.size_le.trans h'.size_le
  kind id hid := (h'.kind id (hid.trans_le h.size_le)).trans (h.kind id hid)
  parameter id hlow hhigh hkind := by
    have hkind' : (changed.node id).kind = .parameter := (h.kind id hhigh).trans hkind
    rw [h'.parameter id hlow (hhigh.trans_le h.size_le) hkind', h.parameter id hlow hhigh hkind]
  typeAt id depth type hlow hhigh htype := h'.typeAt id depth type hlow hhigh (h.typeAt id depth type hlow hhigh htype)

theorem of_noted (h : graph.Noted changed) : Spares origin low high graph changed where
  size_le := h.size.ge
  kind id _ := h.kind id
  parameter id _ _ _ := h.get id (by decide) (by decide)
  typeAt _ _ _ _ _ htype := h.typeAt htype

theorem visible (h : Spares origin low high graph changed) (hvisible : origin.Visible graph value) :
    origin.Visible changed value :=
  hvisible.mono fun id hid => by rwa [h.kind id (Derived.lt_size_of_isSubstitute hid)]

/-- What decides on the types of a region lies in the region, or it was made by the analysis. -/
theorem regards_mem (hderived : origin.Derived graph) (hlaid : origin.WellLaid root) (hclosed : origin.Closed low high)
    (hhigh : high ≤ origin.nodes.size) {child : Nat}
    (hid : low ≤ id ∧ id < high ∨ origin.nodes.size ≤ id ∧ id < graph.nodes.size)
    (hchild : .node child ∈ (graph.node id).regards) :
    low ≤ child ∧ child < high ∨ origin.nodes.size ≤ child ∧ child < graph.nodes.size := by
  obtain ⟨hkind, field, hfield, hget⟩ := Node.exists_of_mem_regards hchild
  rcases hid with ⟨hlow, hlt⟩ | ⟨hlow, hlt⟩
  · have hidlt : id < origin.nodes.size := by omega
    rw [hderived.kind id hidlt] at hkind
    have hoperand : (origin.node id).kind.hasOperand field :=
      Kind.hasOperand_of_ne ((by decide : ∀ field ∈ [Field.value, .left, .right], field ∈ Draft.operandFields) field hfield)
        (.inl hkind)
    rcases hderived.below_of_operand hlaid hidlt hoperand (by rw [hget]; exact .node) with hbelow | hlate
    · exact .inl (hclosed id child hlow hlt hbelow)
    · refine .inr ⟨hlate, ?_⟩
      rcases (hderived.operand id field hidlt hoperand).visible child hget with hold | hsubstitute
      · omega
      · exact Derived.lt_size_of_isSubstitute hsubstitute
  · rw [Node.regards_of_isLate (hderived.late id hlow hlt).kind] at hchild
    cases hchild

theorem of_face (hderived : origin.Derived graph) (hlaid : origin.WellLaid root) (hclosed : origin.Closed low high)
    (hhigh : high ≤ origin.nodes.size) (hsize : graph.nodes.size ≤ changed.nodes.size)
    (hkind : ∀ id : Nat, id < graph.nodes.size → (changed.node id).kind = (graph.node id).kind)
    (hface : ∀ id : Nat, low ≤ id ∧ id < high ∨ origin.nodes.size ≤ id ∧ id < graph.nodes.size →
      (graph.node id).SameFace (changed.node id)) : Spares origin low high graph changed where
  size_le := hsize
  kind := hkind
  parameter id hlow hlt hparameter := by
    have hsource := (hface id (.inr ⟨hlow, hlt⟩)).source
    unfold Node.typeSource at hsource
    rw [hkind id hlt, hparameter] at hsource
    injection hsource
  typeAt id depth type hlow hlt htype := by
    rw [← htype]
    exact typeAt_congr (P := fun id => low ≤ id ∧ id < high ∨ origin.nodes.size ≤ id ∧ id < graph.nodes.size)
      (fun id child hid hchild => regards_mem hderived hlaid hclosed hhigh hid hchild) hface depth id (.inl ⟨hlow, hlt⟩)

section Changes

variable (hderived : origin.Derived graph) (hlaid : origin.WellLaid root) (hclosed : origin.Closed low high)
  (hhigh : high ≤ origin.nodes.size)

include hderived hlaid hclosed hhigh

theorem set_outside (hid : id < origin.nodes.size) (hout : id < low ∨ high ≤ id) :
    Spares origin low high graph (graph.setField id field value) := by
  refine of_face hderived hlaid hclosed hhigh Array.size_modify.ge (fun other _ => kind_setField ..) fun other hother => ?_
  have hne : other ≠ id := by omega
  rw [node_setField, if_neg fun hsame => hne hsame.1]
  exact .refl _

theorem set_harmless (hfield : field ∉ Node.face) : Spares origin low high graph (graph.setField id field value) := by
  refine of_face hderived hlaid hclosed hhigh Array.size_modify.ge (fun other _ => kind_setField ..) fun other _ => ?_
  rw [node_setField]
  split
  · exact Node.sameFace_set hfield
  · exact .refl _

theorem add (node : Node) : Spares origin low high graph (graph.add node).2 := by
  have hle := hderived.size_le
  have hold : ∀ other : Nat, other < graph.nodes.size → (graph.add node).2.node other = graph.node other := by
    intro other hother
    rw [node_add, if_neg (Nat.ne_of_lt hother)]
  refine of_face hderived hlaid hclosed hhigh ?_ (fun other hother => by rw [hold other hother]) fun other hother => ?_
  · rw [show (graph.add node).2.nodes.size = graph.nodes.size + 1 from Array.size_push _]
    omega
  · rw [hold other (by omega)]
    exact .refl _

end Changes

end Spares

end Graph

end Scriptlet
