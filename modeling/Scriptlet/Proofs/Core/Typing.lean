import Scriptlet.Proofs.Core.Tree
import Scriptlet.Proofs.TypeNotes

/-!
The type that is read off an expression.

An operation has one type only, so what is read off it is that type or that there is none.  A reference
has the type noted at it.
-/

namespace Scriptlet.Core

open Draft (typeWithin invalidType)

variable {graph : Graph} {e : Expr}

/-- The type noted at a reference. -/
def noted (graph : Graph) (id : NodeId) : Option Ty :=
  if ((graph.node id).get .type).isText TypeName.integer then some .int
  else if ((graph.node id).get .type).isText TypeName.boolean then some .bool
  else none

/-- The type of an expression, if its parts fit. -/
def Expr.reading (graph : Graph) : Expr → Option Ty
  | int .. | arith .. | neg .. => some .int
  | bool .. | not .. | compare .. | logic .. => some .bool
  | var id _ => noted graph id

def Expr.Settled (graph : Graph) : Expr → Prop
  | int .. | bool .. | var .. => True
  | arith _ _ left right =>
      (left.reading graph = some .int ∧ left.Settled graph) ∧
        right.reading graph = some .int ∧ right.Settled graph
  | neg _ operand => operand.reading graph = some .int ∧ operand.Settled graph
  | not _ operand => operand.reading graph = some .bool ∧ operand.Settled graph
  | compare _ _ left right =>
      (left.reading graph ≠ none ∧ left.Settled graph) ∧
        right.reading graph ≠ none ∧ right.Settled graph
  | logic _ _ left right =>
      (left.reading graph = some .bool ∧ left.Settled graph) ∧
        right.reading graph = some .bool ∧ right.Settled graph

/-- What is read off an expression: its type, or that there is none because its parts do not fit. -/
def Expr.Reads (graph : Graph) (e : Expr) (type : Option Ty) : Prop :=
  type = e.reading graph ∨ type = none ∧ ¬ e.Settled graph

theorem Expr.Reads.eq_reading {type : Option Ty} (h : e.Reads graph type) (hsettled : e.Settled graph) :
    type = e.reading graph :=
  h.resolve_right fun hnone => hnone.2 hsettled

/-- Operations have remembered their types, and nothing else has changed. -/
structure Cached (draft draft' : Draft) : Prop where
  retyped : Retyped draft.graph draft'.graph
  types : ∀ id, (draft'.graph.node id).get? .type = (draft.graph.node id).get? .type
  journal : draft'.journal = draft.journal

section Cached

variable {draft draft' : Draft}

theorem Cached.refl (draft : Draft) : Cached draft draft :=
  ⟨Retyped.refl _, fun _ => rfl, rfl⟩

theorem Cached.trans {a b c : Draft} (hab : Cached a b) (hbc : Cached b c) : Cached a c :=
  ⟨hab.retyped.trans hbc.retyped, fun id => (hbc.types id).trans (hab.types id),
    hbc.journal.trans hab.journal⟩

theorem Cached.noted (h : Cached draft draft') (id : NodeId) :
    noted draft'.graph id = noted draft.graph id := by
  unfold Core.noted Node.get
  rw [h.types id]

theorem Cached.reading (h : Cached draft draft') (e : Expr) :
    e.reading draft'.graph = e.reading draft.graph := by
  cases e <;> simp [Expr.reading, h.noted]

theorem Cached.settled (h : Cached draft draft') (e : Expr) :
    e.Settled draft'.graph ↔ e.Settled draft.graph := by
  induction e <;> simp_all [Expr.Settled, h.reading]

theorem Cached.reads (h : Cached draft draft') {e : Expr} {type : Option Ty} :
    e.Reads draft'.graph type ↔ e.Reads draft.graph type := by
  simp only [Expr.Reads, h.reading, h.settled]

theorem cached_setField {id : NodeId} {field : Field} {value : Value}
    (hnote : IsNote (draft.graph.node id).kind field)
    (hsay : MaySay draft.graph (draft.graph.node id) field value) (hfield : field ≠ .type) :
    Cached draft { draft with graph := draft.graph.setField id field value } :=
  ⟨retyped_setField hnote hsay, fun _ => Graph.get?_setField_of_ne _ _ (Or.inr hfield.symm), rfl⟩

end Cached

theorem Noted.get {id : NodeId} (field : Field) (h : Noted graph id) (hnote : IsNote (graph.node id).kind field) :
    (graph.node id).get field = .null ∨
      MaySay graph (graph.node id) field ((graph.node id).get field) := by
  unfold Node.get
  cases hget : (graph.node id).get? field with
  | none => exact Or.inl rfl
  | some value => exact h field value hnote hget

/-- An expression stands in a graph, and its notes are as they should be. -/
structure Expr.Tidy (graph : Graph) (e : Expr) : Prop where
  stands : e.Stands graph
  noted : ∀ id ∈ e.ids, Noted graph id

theorem Expr.id_mem_ids (e : Expr) : e.id ∈ e.ids := by
  cases e <;> simp [Expr.id, Expr.ids]

theorem Expr.Stands.kind_ne_plain : ∀ {e : Expr}, e.Stands graph → ∀ id ∈ e.ids, (graph.node id).kind ≠ .plain
  | .int .., hstands, id, hid | .bool .., hstands, id, hid | .var .., hstands, id, hid => by
      obtain rfl := List.mem_singleton.1 hid
      simp [Shown.kind hstands]
  | .neg .., ⟨hshown, hoperand⟩, id, hid | .not .., ⟨hshown, hoperand⟩, id, hid => by
      rcases List.mem_cons.1 hid with rfl | hid
      · simp [hshown.kind]
      · exact hoperand.kind_ne_plain id hid
  | .arith .., ⟨hshown, hleft, hright⟩, id, hid | .compare .., ⟨hshown, hleft, hright⟩, id, hid
  | .logic .., ⟨hshown, hleft, hright⟩, id, hid => by
      rcases List.mem_cons.1 hid with rfl | hid
      · simp [hshown.kind]
      · exact (List.mem_append.1 hid).elim (hleft.kind_ne_plain id) (hright.kind_ne_plain id)

theorem Expr.Tidy.retyped {graph' : Graph} (h : e.Tidy graph) (hretyped : Retyped graph graph') : e.Tidy graph' :=
  ⟨h.stands.retyped hretyped,
    fun id hid => hretyped.noted id (h.stands.kind_ne_plain id hid) (h.noted id hid)⟩

theorem Expr.Tidy.part {part : Expr} (h : e.Tidy graph) (hstands : part.Stands graph) (hids : part.ids ⊆ e.ids) :
    part.Tidy graph :=
  ⟨hstands, fun id hid => h.noted id (hids hid)⟩

/-- An operation with two operands. -/
inductive Expr.IsPair : Expr → Expr → Expr → Kind → String → Prop
  | arith (id : NodeId) (op : Arith) (left right : Expr) : IsPair (.arith id op left right) left right .binary op.symbol
  | compare (id : NodeId) (relation : Ir.Relation) (left right : Expr) :
      IsPair (.compare id relation left right) left right .comparison (relationSymbol relation)
  | logic (id : NodeId) (op : Logic) (left right : Expr) : IsPair (.logic id op left right) left right .logical op.symbol

/-- A sign or a negation, with the type that its operand has to be of. -/
inductive Expr.IsSingle : Expr → Expr → String → Ty → Prop
  | neg (id : NodeId) (operand : Expr) : IsSingle (.neg id operand) operand "-" .int
  | not (id : NodeId) (operand : Expr) : IsSingle (.not id operand) operand "!" .bool

section Operations

variable {left right operand : Expr} {kind : Kind} {operator : String} {ty : Ty}

theorem Expr.IsPair.tidy (h : e.IsPair left right kind operator) (htidy : e.Tidy graph) :
    Shown graph e.id kind [(.left, left.value), (.operator, .text operator), (.right, right.value)] ∧
      left.Tidy graph ∧ right.Tidy graph := by
  cases h <;> exact ⟨htidy.stands.1, htidy.part htidy.stands.2.1 (by simp [Expr.ids]),
    htidy.part htidy.stands.2.2 (by simp [Expr.ids])⟩

theorem Expr.IsSingle.tidy (h : e.IsSingle operand operator ty) (htidy : e.Tidy graph) :
    Shown graph e.id .unary [(.operator, .text operator), (.left, operand.value)] ∧ operand.Tidy graph := by
  cases h <;> exact ⟨htidy.stands.1, htidy.part htidy.stands.2 (by simp [Expr.ids])⟩

end Operations

/-! ### Reading types -/

theorem literalType_boolean (value : Bool) :
    literalType .boolean (.text (if value then "true" else "false")) = TypeName.boolean := by
  cases value <;> decide +kernel

theorem binaryType?_arith (op : Arith) (left right : Option Ty) :
    binaryType? (.text op.symbol) (typeValue left) (typeValue right) =
      if left = some .int ∧ right = some .int then some TypeName.integer else none := by
  cases op <;> rcases left with _ | _ | _ <;> rcases right with _ | _ | _ <;> decide

def Expr.Readable (e : Expr) : Prop :=
  ∀ depth draft draft' type, e.Tidy draft.graph → typeWithin depth e.value draft = .ok type draft' →
    Cached draft draft' ∧ ∃ read, type = typeValue read ∧ e.Reads draft.graph read

section Typing

variable {draft draft' : Draft} {type : Value} {depth : Nat} {id : NodeId} {e operand left right : Expr}
variable {name : String}

theorem typeValue_noted {graph : Graph} (htidy : (Expr.var id name).Tidy graph) :
    Node.typeOrInvalid ((graph.node id).get .type) = typeValue (noted graph id) := by
  have hkind := Shown.kind htidy.stands
  unfold noted
  rcases (htidy.noted id (by simp [Expr.ids])).get .type (by simp [hkind, IsNote]) with h | h
  · rw [h]
    rfl
  · obtain ⟨type, htype⟩ : ∃ type, (graph.node id).get .type = typeValue type := by
      simpa [MaySay, hkind] using h
    rw [htype]
    rcases type with _ | _ | _ <;> rfl

/-- The type that an operation is of, if its operands fit. -/
def noteType (node : Node) : Ty :=
  match node.kind with
  | .binary => .int
  | .unary => if (node.get .operator).isText "!" then .bool else .int
  | _ => .bool

theorem isNote_noteField {kind : Kind} (h : kind.isNoted) : IsNote kind kind.noteField ∧ kind.noteField ≠ .type := by
  cases kind <;> simp [Kind.isNoted] at h <;> exact ⟨rfl, by decide⟩

theorem maySay_noteField {graph : Graph} {node : Node} {value : Value} (h : node.kind.isNoted) :
    MaySay graph node node.kind.noteField value ↔ value = typeValue (some (noteType node)) := by
  unfold MaySay noteType
  cases hkind : node.kind <;> simp [hkind, Kind.isNoted] at h ⊢

theorem typeWithin_node (h : typeWithin depth (.node id) draft = .ok type draft') :
    ∃ n, depth = n + 1 := by
  cases depth with
  | zero => simp [typeWithin] at h
  | succ n => exact ⟨n, rfl⟩

/-- An operation has its type in its note, or it finds it from its operands and makes a note of it. -/
theorem readable_step (htidy : e.Tidy draft.graph) (hkind : (draft.graph.node e.id).kind.isNoted)
    (hreading : e.reading draft.graph = some (noteType (draft.graph.node e.id)))
    (hname : Value.text name = typeValue (e.reading draft.graph)) (h : typeWithin depth e.value draft = .ok type draft')
    (hoperands : ∀ depth left right first second,
      typeWithin depth ((draft.graph.node e.id).get .left) draft = .ok left first →
      Draft.typeOfRight (typeWithin depth) (draft.graph.node e.id) first = .ok right second → Cached draft second ∧
        (operationType? (draft.graph.node e.id).kind ((draft.graph.node e.id).get .operator) left right = some name ∨
          operationType? (draft.graph.node e.id).kind ((draft.graph.node e.id).get .operator) left right = none ∧
            ¬ e.Settled draft.graph)) :
    Cached draft draft' ∧ ∃ read, type = typeValue read ∧ e.Reads draft.graph read := by
  obtain ⟨depth, rfl⟩ := typeWithin_node h
  obtain ⟨hisNote, hfield⟩ := isNote_noteField hkind
  have hplain := htidy.stands.kind_ne_plain _ e.id_mem_ids
  rw [Expr.value, Draft.typeWithin_node, Draft.typeStep, Node.typeSource_of_isNoted hkind, Node.noteOr] at h
  rcases (htidy.noted _ e.id_mem_ids).get _ hisNote with hnull | hsay
  · rw [hnull] at h
    obtain ⟨left, first, hleft, h⟩ := bind_eq_ok.1 h
    obtain ⟨right, second, hright, h⟩ := bind_eq_ok.1 h
    obtain ⟨hcached, htype | ⟨htype, hunsettled⟩⟩ := hoperands depth left right first second hleft hright
    · rw [htype] at h
      obtain ⟨_, _, hset, h⟩ := bind_eq_ok.1 h
      obtain rfl := Draft.setField_node_eq_ok.1 hset
      obtain ⟨rfl, rfl⟩ := pure_eq_ok.1 h
      have hsame := hcached.retyped.kind e.id hplain
      refine ⟨hcached.trans (cached_setField (by rwa [hsame]) ?_ hfield), _, hname, .inl rfl⟩
      have hoperator : (second.graph.node e.id).get .operator = (draft.graph.node e.id).get .operator := by
        rw [Node.get, hcached.retyped.kept _ _ hplain not_isNote_operator, ← Node.get]
      rw [← hsame, maySay_noteField (by rwa [hsame]), hname, hreading, noteType, noteType, hsame, hoperator]
    · rw [htype] at h
      obtain ⟨rfl, rfl⟩ := pure_eq_ok.1 h
      exact ⟨hcached, none, rfl, .inr ⟨rfl, hunsettled⟩⟩
  · rw [maySay_noteField hkind, ← hreading] at hsay
    have hgiven : (typeValue (e.reading draft.graph)).isNull = false := by rw [← hname]; rfl
    rw [hsay, hgiven] at h
    obtain ⟨rfl, rfl⟩ := pure_eq_ok.1 h
    exact ⟨Cached.refl _, _, rfl, .inl rfl⟩

theorem isText_boolean (type : Option Ty) :
    (typeValue type).isText TypeName.boolean = decide (type = some .bool) := by
  rcases type with _ | _ | _ <;> rfl

theorem isOneOf_comparableTypes (type : Option Ty) :
    (typeValue type).isOneOf comparableTypes = decide (type ≠ none) := by
  rcases type with _ | _ | _ <;> rfl

theorem isNumeric_typeValue (type : Option Ty) :
    isNumeric (typeValue type) = decide (type = some .int) := by
  rcases type with _ | _ | _ <;> rfl

/-- An operation with two operands: `fits` says for which types of them it has a type. -/
theorem readable_pair {kind : Kind} {operator : String} (hpair : e.IsPair left right kind operator)
    (fits : Option Ty → Option Ty → Prop) [∀ l r, Decidable (fits l r)]
    (hname : ∀ graph, Value.text name = typeValue (e.reading graph))
    (htype : ∀ l r, operationType? kind (.text operator) (typeValue l) (typeValue r) =
      if fits l r then some name else none)
    (hsettled : ∀ graph, e.Settled graph → left.Settled graph ∧ right.Settled graph ∧
      fits (left.reading graph) (right.reading graph)) (hleft : left.Readable) (hright : right.Readable) :
    e.Readable := by
  intro depth draft draft' type htidy h
  obtain ⟨hshown, htidyLeft, htidyRight⟩ := hpair.tidy htidy
  obtain ⟨hl, ho, hr⟩ := hshown.operands
  have hkind : kind.isNoted ∧ kind ≠ .unary := by cases hpair <;> decide
  have hreading : e.reading draft.graph = some (noteType (draft.graph.node e.id)) := by
    unfold noteType
    cases hpair <;> rw [hshown.kind] <;> rfl
  refine readable_step htidy (hshown.kind ▸ hkind.1) hreading (hname _) h ?_
  intro depth leftType rightType first second hfirst hsecond
  rw [Draft.typeOfRight_of_ne (by rw [hshown.kind]; exact hkind.2), Node.get_of_get? hr] at hsecond
  rw [Node.get_of_get? hl] at hfirst
  obtain ⟨hcached, l, rfl, hreadsLeft⟩ := hleft _ _ _ _ htidyLeft hfirst
  obtain ⟨hcached', r, rfl, hreadsRight⟩ := hright _ _ _ _ (htidyRight.retyped hcached.retyped) hsecond
  refine ⟨hcached.trans hcached', ?_⟩
  rw [hshown.kind, Node.get_of_get? ho, htype]
  by_cases hfits : fits l r
  · exact .inl (if_pos hfits)
  · refine .inr ⟨if_neg hfits, fun h => hfits ?_⟩
    obtain ⟨hsettledLeft, hsettledRight, hfit⟩ := hsettled _ h
    rwa [hreadsLeft.eq_reading hsettledLeft, (hcached.reads.1 hreadsRight).eq_reading hsettledRight]

theorem readable_single {operator : String} {ty : Ty} (hsingle : e.IsSingle operand operator ty)
    (hoperand : operand.Readable) : e.Readable := by
  intro depth draft draft' type htidy h
  obtain ⟨hshown, htidyOperand⟩ := hsingle.tidy htidy
  obtain ⟨ho, hl⟩ := hshown.operand
  have hreading : e.reading draft.graph = some ty := by cases hsingle <;> rfl
  have hsay : noteType (draft.graph.node e.id) = ty := by
    rw [noteType, hshown.kind, Node.get_of_get? ho]
    cases hsingle <;> rfl
  have hsettled : e.Settled draft.graph → operand.reading draft.graph = some ty ∧ operand.Settled draft.graph := by
    cases hsingle <;> exact id
  obtain ⟨name, hname, htype⟩ : ∃ name, Value.text name = typeValue (some ty) ∧
      ∀ l, signType? (.text operator) (typeValue l) = if l = some ty then some name else none := by
    cases hsingle <;> exact ⟨_, rfl, fun l => by rcases l with _ | _ | _ <;> rfl⟩
  refine readable_step htidy (by rw [hshown.kind]; rfl) (by rw [hreading, hsay]) (by rwa [hreading]) h ?_
  intro depth operandType rightType first second hfirst hsecond
  rw [Draft.typeOfRight, if_pos hshown.kind] at hsecond
  obtain ⟨-, rfl⟩ := pure_eq_ok.1 hsecond
  rw [Node.get_of_get? hl] at hfirst
  obtain ⟨hcached, l, rfl, hreads⟩ := hoperand _ _ _ _ htidyOperand hfirst
  refine ⟨hcached, ?_⟩
  rw [hshown.kind, Node.get_of_get? ho, operationType?, htype]
  by_cases hfits : l = some ty
  · exact .inl (if_pos hfits)
  · refine .inr ⟨if_neg hfits, fun h => hfits ?_⟩
    obtain ⟨hfit, hsettledOperand⟩ := hsettled h
    rw [hreads.eq_reading hsettledOperand, hfit]

theorem readable_leaf (hgiven : ∀ graph, e.Tidy graph → (graph.node e.id).typeSource = .given (typeValue (e.reading graph))) :
    e.Readable := by
  intro depth draft draft' type htidy h
  obtain ⟨depth, rfl⟩ := typeWithin_node h
  rw [Expr.value, Draft.typeWithin_node, Draft.typeStep, hgiven _ htidy] at h
  obtain ⟨rfl, rfl⟩ := pure_eq_ok.1 h
  exact ⟨Cached.refl _, _, rfl, .inl rfl⟩

theorem Expr.readable (e : Expr) : e.Readable := by
  induction e with
  | int id value =>
      refine readable_leaf fun graph htidy => ?_
      rw [Expr.id, Node.typeSource, htidy.stands.kind, Node.get_of_get? (htidy.stands.fields _ List.mem_cons_self)]
      rfl
  | bool id value =>
      refine readable_leaf fun graph htidy => ?_
      rw [Expr.id, Node.typeSource, htidy.stands.kind, Node.get_of_get? (htidy.stands.fields _ List.mem_cons_self),
        literalType_boolean]
      rfl
  | var id name =>
      refine readable_leaf fun graph htidy => ?_
      rw [Expr.id, Node.typeSource, htidy.stands.kind]
      exact congrArg TypeSource.given (typeValue_noted htidy)
  | arith id op left right hleft hright =>
      exact readable_pair (.arith id op left right) (fun l r => l = some .int ∧ r = some .int) (fun _ => rfl)
        (binaryType?_arith op) (fun _ h => ⟨h.1.2, h.2.2, h.1.1, h.2.1⟩) hleft hright
  | neg id operand hoperand => exact readable_single (.neg id operand) hoperand
  | not id operand hoperand => exact readable_single (.not id operand) hoperand
  | compare id relation left right hleft hright =>
      exact readable_pair (.compare id relation left right) (fun l r => l ≠ none ∧ r ≠ none) (fun _ => rfl)
        (fun l r => by rcases l with _ | _ | _ <;> rcases r with _ | _ | _ <;> rfl)
        (fun _ h => ⟨h.1.2, h.2.2, h.1.1, h.2.1⟩) hleft hright
  | logic id op left right hleft hright =>
      exact readable_pair (.logic id op left right) (fun l r => l = some .bool ∧ r = some .bool) (fun _ => rfl)
        (fun l r => by rcases l with _ | _ | _ <;> rcases r with _ | _ | _ <;> rfl)
        (fun _ h => ⟨h.1.2, h.2.2, h.1.1, h.2.1⟩) hleft hright

theorem typeOf_expr (htidy : e.Tidy draft.graph) (h : Draft.typeOf e.value draft = .ok type draft') :
    Cached draft draft' ∧ ∃ read, type = typeValue read ∧ e.Reads draft.graph read :=
  e.readable _ _ _ _ htidy h

end Typing

end Scriptlet.Core
