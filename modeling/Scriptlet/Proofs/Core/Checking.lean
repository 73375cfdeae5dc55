import Scriptlet.Proofs.Check.Outcome
import Scriptlet.Proofs.Core.Code
import Scriptlet.Proofs.Core.Recording

/-!
What the analysis of an expression does: it notes types, and where it comes to its end, the types of
all operands fit.

A node can stand at several places, but the variables that are read at it have one type, which is
given beforehand.
-/

namespace Scriptlet

namespace Core

/-- Only notes have changed, and every reference has kept the type noted at it or has got the one given
for it. -/
structure Marked (typeAt : NodeId → Option Ty) (graph graph' : Graph) : Prop where
  retyped : Retyped graph graph'
  types : ∀ id, (graph.node id).kind = .reference →
    noted graph' id = noted graph id ∨ noted graph' id = typeAt id

/-- The types given for references are those of the variables, and no others are noted. -/
def Fair (typeAt : NodeId → Option Ty) (reads : List (NodeId × Option Ty)) (graph : Graph) : Prop :=
  ∀ entry ∈ reads, (graph.node entry.1).kind = .reference ∧ typeAt entry.1 = entry.2 ∧
    (noted graph entry.1 = none ∨ noted graph entry.1 = entry.2)

/-- The types of the variables are noted at the references. -/
def Annotated (reads : List (NodeId × Option Ty)) (graph : Graph) : Prop :=
  ∀ entry ∈ reads, noted graph entry.1 = entry.2

/-- The types of all operands fit. -/
def Expr.Fitting (types : Types) : Expr → Prop
  | int .. | bool .. | var .. => True
  | arith _ _ left right =>
      (left.typeIn types = some .int ∧ left.Fitting types) ∧ right.typeIn types = some .int ∧ right.Fitting types
  | neg _ operand => operand.typeIn types = some .int ∧ operand.Fitting types
  | not _ operand => operand.typeIn types = some .bool ∧ operand.Fitting types
  | compare _ _ left right =>
      (left.typeIn types ≠ none ∧ left.Fitting types) ∧ right.typeIn types ≠ none ∧ right.Fitting types
  | logic _ _ left right =>
      (left.typeIn types = some .bool ∧ left.Fitting types) ∧ right.typeIn types = some .bool ∧ right.Fitting types

/-- Nothing but notes has changed. -/
structure Seen (typeAt : NodeId → Option Ty) (a a' : Analysis) : Prop where
  state : a' = { a with toDraft := a'.toDraft }
  marked : Marked typeAt a.graph a'.graph

/-- What the analysis finds when it comes to an expression. -/
structure Expr.Reached (e : Expr) (typeAt : NodeId → Option Ty) (types : Types) (a : Analysis) : Prop where
  tidy : e.Tidy a.graph
  known : Known a.graph a.table types
  fair : Fair typeAt (e.reads types) a.graph

def Expr.Checks (e : Expr) : Prop :=
  ∀ ⦃typeAt depth a a' u types⦄, e.Reached typeAt types a → Check.visitWithin depth e.value a = .ok u a' →
    Seen typeAt a a' ∧ e.Fitting types ∧ Annotated (e.reads types) a'.graph

section Notes

variable {typeAt : NodeId → Option Ty} {reads reads' : List (NodeId × Option Ty)} {graph graph' graph'' : Graph}
  {types : Types} {e : Expr} {a a' a₁ a₂ : Analysis}

theorem Marked.refl (typeAt : NodeId → Option Ty) (graph : Graph) : Marked typeAt graph graph :=
  ⟨Retyped.refl graph, fun _ _ => Or.inl rfl⟩

theorem Marked.kind (h : Marked typeAt graph graph') {id : NodeId} (hkind : (graph.node id).kind = .reference) :
    (graph'.node id).kind = .reference := by
  rw [h.retyped.kind id (by simp [hkind]), hkind]

theorem Marked.trans (h : Marked typeAt graph graph') (h' : Marked typeAt graph' graph'') :
    Marked typeAt graph graph'' := by
  refine ⟨h.retyped.trans h'.retyped, fun id hkind => ?_⟩
  rcases h'.types id (h.kind hkind) with heq | heq
  · rw [heq]
    exact h.types id hkind
  · exact Or.inr heq

theorem Fair.marked (h : Fair typeAt reads graph) (hmarked : Marked typeAt graph graph') :
    Fair typeAt reads graph' := by
  intro entry hentry
  obtain ⟨hkind, htype, hnoted⟩ := h entry hentry
  refine ⟨hmarked.kind hkind, htype, ?_⟩
  rcases hmarked.types entry.1 hkind with heq | heq
  · rwa [heq]
  · exact Or.inr (heq.trans htype)

theorem Fair.append (h : Fair typeAt (reads ++ reads') graph) :
    Fair typeAt reads graph ∧ Fair typeAt reads' graph :=
  List.forall_mem_append.1 h

theorem Annotated.marked (h : Annotated reads graph) (hfair : Fair typeAt reads graph)
    (hmarked : Marked typeAt graph graph') : Annotated reads graph' := by
  intro entry hentry
  obtain ⟨hkind, htype, -⟩ := hfair entry hentry
  rcases hmarked.types entry.1 hkind with heq | heq
  · rw [heq, h entry hentry]
  · rw [heq, htype]

theorem Annotated.append (h : Annotated reads graph) (h' : Annotated reads' graph) :
    Annotated (reads ++ reads') graph :=
  List.forall_mem_append.2 ⟨h, h'⟩

theorem Seen.refl (typeAt : NodeId → Option Ty) (a : Analysis) : Seen typeAt a a :=
  ⟨rfl, Marked.refl _ _⟩

theorem Seen.retyped (h : Seen typeAt a a') : Retyped a.graph a'.graph :=
  h.marked.retyped

theorem Seen.trans (h : Seen typeAt a a₁) (h₁ : Seen typeAt a₁ a₂) : Seen typeAt a a₂ := by
  refine ⟨?_, h.marked.trans h₁.marked⟩
  rw [h₁.state, h.state]

theorem Seen.table (h : Seen typeAt a a') : a'.table = a.table := by
  rw [h.state]

theorem Seen.known (h : Seen typeAt a a') (hknown : Known a.graph a.table types) :
    Known a'.graph a'.table types := by
  rw [h.table]
  exact hknown.retyped h.retyped

theorem Expr.Reached.seen (h : e.Reached typeAt types a) (hseen : Seen typeAt a a') : e.Reached typeAt types a' :=
  ⟨h.tidy.retyped hseen.retyped, hseen.known h.known, h.fair.marked hseen.marked⟩

theorem seen_of_cached {draft : Draft} (typeAt : NodeId → Option Ty) (h : Cached a.toDraft draft) :
    Seen typeAt a { a with toDraft := draft } :=
  ⟨rfl, h.retyped, fun id _ => Or.inl (h.noted id)⟩

/-- Where all references are annotated, the types that are read are those of the program. -/
theorem Annotated.reading (h : Annotated (e.reads types) graph) : e.reading graph = e.typeIn types := by
  cases e with
  | var id name => exact h (id, (types.find? name).join) (List.mem_singleton.2 rfl)
  | _ => rfl

theorem Annotated.operands {left right : Expr} (h : Annotated (left.reads types ++ right.reads types) graph) :
    Annotated (left.reads types) graph ∧ Annotated (right.reads types) graph :=
  List.forall_mem_append.1 h

theorem Annotated.cached {draft draft' : Draft} (h : Annotated reads draft.graph) (hcached : Cached draft draft') :
    Annotated reads draft'.graph :=
  fun entry hentry => (hcached.noted entry.1).trans (h entry hentry)

theorem Expr.Fitting.settled (hfitting : e.Fitting types) (h : Annotated (e.reads types) graph) :
    e.Settled graph := by
  induction e with
  | int | bool | var => trivial
  | neg id operand ih | not id operand ih =>
      have hoperand : Annotated (operand.reads types) graph := h
      exact ⟨hoperand.reading.trans hfitting.1, ih hfitting.2 hoperand⟩
  | arith id op left right ihLeft ihRight | logic id op left right ihLeft ihRight =>
      obtain ⟨hleft, hright⟩ := Annotated.operands h
      exact ⟨⟨hleft.reading.trans hfitting.1.1, ihLeft hfitting.1.2 hleft⟩, hright.reading.trans hfitting.2.1,
        ihRight hfitting.2.2 hright⟩
  | compare id relation left right ihLeft ihRight =>
      obtain ⟨hleft, hright⟩ := Annotated.operands h
      exact ⟨⟨hleft.reading ▸ hfitting.1.1, ihLeft hfitting.1.2 hleft⟩, hright.reading ▸ hfitting.2.1,
        ihRight hfitting.2.2 hright⟩

theorem Expr.Fitting.sound (h : e.Fitting types) : e.Sound types := by
  induction e with
  | int | bool | var => trivial
  | neg id operand ih => exact ih h.2
  | not id operand ih => exact ⟨by simp [h.1], ih h.2⟩
  | arith id op left right ihLeft ihRight | compare id op left right ihLeft ihRight =>
      exact ⟨ihLeft h.1.2, ihRight h.2.2⟩
  | logic id op left right ihLeft ihRight =>
      exact ⟨⟨by simp [h.1.1], ihLeft h.1.2⟩, by simp [h.2.1], ihRight h.2.2⟩

theorem typeOf_analysis {type : Value} (htidy : e.Tidy a.graph)
    (h : (liftM (Draft.typeOf e.value) : Check Value) a = .ok type a') :
    ∃ draft, a' = { a with toDraft := draft } ∧ Cached a.toDraft draft ∧
      ∃ read, type = typeValue read ∧ e.Reads a.graph read := by
  obtain ⟨draft, htype, rfl⟩ := lift_eq_ok.1 h
  exact ⟨draft, rfl, typeOf_expr htidy htype⟩

theorem typeOf_fitting {type : Value} (htidy : e.Tidy a.graph) (hfitting : e.Fitting types)
    (hannotated : Annotated (e.reads types) a.graph)
    (h : (liftM (Draft.typeOf e.value) : Check Value) a = .ok type a') :
    type = typeValue (e.typeIn types) ∧ ∃ draft, a' = { a with toDraft := draft } ∧ Cached a.toDraft draft := by
  obtain ⟨draft, rfl, hcached, read, rfl, hreads⟩ := typeOf_analysis htidy h
  exact ⟨by rw [hreads.eq_reading (hfitting.settled hannotated), hannotated.reading], draft, rfl, hcached⟩

end Notes

/-! ### Operations -/

section Operations

variable {typeAt : NodeId → Option Ty} {types : Types} {e left right operand : Expr} {a a' a₁ : Analysis} {u : Unit}
  {kind : Kind} {operator : String} {depth : Nat}

section Pairs

variable (hpair : e.IsPair left right kind operator)

include hpair

theorem Expr.Reached.operands (h : e.Reached typeAt types a) :
    Shown a.graph e.id kind [(.left, left.value), (.operator, .text operator), (.right, right.value)] ∧
      left.Reached typeAt types a ∧ right.Reached typeAt types a := by
  obtain ⟨hshown, hleft, hright⟩ := hpair.tidy h.tidy
  obtain ⟨hfairLeft, hfairRight⟩ : Fair typeAt (left.reads types) a.graph ∧ Fair typeAt (right.reads types) a.graph := by
    cases hpair <;> exact Fair.append h.fair
  exact ⟨hshown, ⟨hleft, h.known, hfairLeft⟩, hright, h.known, hfairRight⟩

theorem promote_ok (htidy : e.Tidy a.graph) (h : Check.promote e.value a = .ok u a') : Seen typeAt a a' := by
  simp only [Check.promote, bind_eq_ok] at h
  obtain ⟨type, a₁, htype, h⟩ := h
  obtain ⟨draft, rfl, hcached, read, rfl, -⟩ := typeOf_analysis htidy htype
  have hdouble : (typeValue read).isText TypeName.double = false := by rcases read with _ | _ | _ <;> rfl
  have htidy₁ := htidy.retyped hcached.retyped
  obtain ⟨hshown, htidyLeft, -⟩ := hpair.tidy htidy₁
  generalize walkDepth = depth at h
  cases depth with
  | zero => simp [Check.promoteWithin] at h
  | succ depth =>
      simp only [Expr.value, Check.promoteWithin, bind_eq_ok, Check.attribute_eq_ok, hdouble] at h
      obtain ⟨_, _, ⟨hl, rfl⟩, _, _, htypeLeft, _, _, ⟨hr, rfl⟩, _, _, htypeRight, h⟩ := h
      obtain rfl : _ = left.value := hshown.get_eq hl
      obtain ⟨draft₁, rfl, hcached₁, -⟩ := typeOf_analysis htidyLeft htypeLeft
      obtain ⟨hshown₁, -, htidyRight⟩ := hpair.tidy (htidy₁.retyped hcached₁.retyped)
      obtain rfl : _ = right.value := hshown₁.get_eq hr
      obtain ⟨draft₂, rfl, hcached₂, -⟩ := typeOf_analysis htidyRight htypeRight
      obtain ⟨-, rfl⟩ := pure_eq_ok.1 h
      exact seen_of_cached typeAt ((hcached.trans hcached₁).trans hcached₂)

theorem checkOperation_ok (htidy : e.Tidy a.graph) (hfitLeft : left.Fitting types) (hfitRight : right.Fitting types)
    (hannotatedLeft : Annotated (left.reads types) a.graph) (hannotatedRight : Annotated (right.reads types) a.graph)
    (h : Check.checkOperation e.value a = .ok u a') :
    ∃ draft, Cached a.toDraft draft ∧
      Check.checkOperands e.value left.value right.value (.text operator) (typeValue (left.typeIn types))
        (typeValue (right.typeIn types)) { a with toDraft := draft } = .ok u a' := by
  simp only [Expr.value, Check.checkOperation, bind_eq_ok, Check.attribute_eq_ok] at h
  obtain ⟨_, _, ⟨hl, rfl⟩, _, _, ⟨hr, rfl⟩, _, _, ⟨ho, rfl⟩, _, _, htypeLeft, _, _, htypeRight, h⟩ := h
  obtain ⟨hshown, htidyLeft, htidyRight⟩ := hpair.tidy htidy
  obtain rfl : _ = left.value := hshown.get_eq hl
  obtain rfl : _ = right.value := hshown.get_eq hr
  obtain rfl : _ = Value.text operator := hshown.get_eq ho
  obtain ⟨rfl, draft₁, rfl, hcached₁⟩ := typeOf_fitting htidyLeft hfitLeft hannotatedLeft htypeLeft
  obtain ⟨rfl, draft₂, rfl, hcached₂⟩ :=
    typeOf_fitting (htidyRight.retyped hcached₁.retyped) hfitRight (hannotatedRight.cached hcached₁) htypeRight
  exact ⟨draft₂, hcached₁.trans hcached₂, h⟩

/-- The operands of an operation are analysed, and then the rule for its operator sees their types.  It
changes nothing. -/
theorem visitOperands_ok {fits : Prop} (hleft : left.Checks) (hright : right.Checks) (hreached : e.Reached typeAt types a)
    (hrule : ∀ b, left.Tidy b.graph → right.Tidy b.graph →
      Check.checkOperands e.value left.value right.value (.text operator) (typeValue (left.typeIn types))
        (typeValue (right.typeIn types)) b = .ok u a' → fits ∧ a' = b)
    (h : Check.visitOperands (Check.visitWithin depth) e.value a = .ok u a') :
    Seen typeAt a a' ∧ (fits ∧ left.Fitting types ∧ right.Fitting types) ∧ Annotated (e.reads types) a'.graph := by
  simp only [Expr.value, Check.visitOperands, bind_eq_ok, Check.attribute_eq_ok] at h
  obtain ⟨_, _, ⟨hl, rfl⟩, _, a₁, hvisitLeft, _, _, ⟨hr, rfl⟩, _, a₂, hvisitRight, h⟩ := h
  obtain ⟨hshown, hreachedLeft, -⟩ := hreached.operands hpair
  obtain rfl : _ = left.value := hshown.get_eq hl
  obtain ⟨hseen₁, hfitLeft, hannotatedLeft⟩ := hleft hreachedLeft hvisitLeft
  obtain ⟨hshown₁, -, hreachedRight⟩ := (hreached.seen hseen₁).operands hpair
  obtain rfl : _ = right.value := hshown₁.get_eq hr
  obtain ⟨hseen₂, hfitRight, hannotatedRight⟩ := hright hreachedRight hvisitRight
  have hannotatedLeft := hannotatedLeft.marked (hreachedLeft.seen hseen₁).fair hseen₂.marked
  have hseen := hseen₁.trans hseen₂
  have htidy := (hreached.seen hseen).tidy
  obtain ⟨draft, hcached, h⟩ := checkOperation_ok hpair htidy hfitLeft hfitRight hannotatedLeft hannotatedRight h
  obtain ⟨-, htidyLeft, htidyRight⟩ := hpair.tidy (htidy.retyped hcached.retyped)
  obtain ⟨hfits, rfl⟩ := hrule _ htidyLeft htidyRight h
  refine ⟨hseen.trans (seen_of_cached typeAt hcached), ⟨hfits, hfitLeft, hfitRight⟩, ?_⟩
  cases hpair <;> exact (hannotatedLeft.append hannotatedRight).cached hcached

theorem concatCheck_ok {found : Bool} (hleft : left.Checks) (hright : right.Checks) (hreached : e.Reached typeAt types a)
    (h : Check.concatCheck (Check.visitWithin depth) e.value a = .ok found a') : found = false ∧ Seen typeAt a a' := by
  -- An operand is visited beforehand unless it is an operation itself.
  have hoperand : ∀ {operand : Expr} {b b' : Analysis} {isBinary : Bool}, operand.Checks → operand.Reached typeAt types b →
      (if isBinary = true then b = b' else Check.visitWithin depth operand.value b = .ok ⟨⟩ b') → Seen typeAt b b' := by
    intro operand b b' isBinary hchecks hreached h
    split at h
    · exact h ▸ Seen.refl typeAt b
    · exact (hchecks hreached h).1
  simp only [Expr.value, Check.concatCheck, bind_eq_ok, Check.attribute_eq_ok, lift_isKind_eq_ok, unless_eq_ok] at h
  obtain ⟨_, _, ⟨hl, rfl⟩, _, _, ⟨hr, rfl⟩, _, _, ⟨-, rfl⟩, _, _, ⟨-, rfl⟩, _, _, ⟨-, rfl⟩, a₁, hvisitLeft,
    _, _, ⟨-, rfl⟩, _, _, ⟨-, rfl⟩, a₂, hvisitRight, _, _, htypeLeft, _, _, htypeRight, h⟩ := h
  obtain ⟨hshown, hreachedLeft, -⟩ := hreached.operands hpair
  obtain rfl : _ = left.value := hshown.get_eq hl
  obtain rfl : _ = right.value := hshown.get_eq hr
  have hseen₁ := hoperand hleft hreachedLeft hvisitLeft
  obtain ⟨-, -, hreachedRight⟩ := (hreached.seen hseen₁).operands hpair
  have hseen₂ := hseen₁.trans (hoperand hright hreachedRight hvisitRight)
  have htidy := (hreached.seen hseen₂).tidy
  obtain ⟨-, htidyLeft, -⟩ := hpair.tidy htidy
  obtain ⟨draft₃, rfl, hcached₃, l, rfl, -⟩ := typeOf_analysis htidyLeft htypeLeft
  obtain ⟨-, -, htidyRight⟩ := hpair.tidy (htidy.retyped hcached₃.retyped)
  obtain ⟨draft₄, rfl, hcached₄, r, rfl, -⟩ := typeOf_analysis htidyRight htypeRight
  rw [isText_string, isText_string] at h
  obtain ⟨rfl, rfl⟩ := pure_eq_ok.1 h
  exact ⟨rfl, hseen₂.trans (seen_of_cached typeAt (hcached₃.trans hcached₄))⟩

end Pairs

/-! #### Names of types -/

theorem isCall_value (htidy : e.Tidy a.graph) : a.graph.isKind .call e.value = false := by
  obtain ⟨hstands, -⟩ := htidy
  cases e with
  | int | bool | var => simp [Expr.value, Expr.id, Shown.kind hstands]
  | _ => simp [Expr.value, Expr.id, hstands.1.kind]

theorem isOrdinary_value (htidy : e.Tidy a.graph) : IsOrdinary a.graph e.value := by
  obtain ⟨hstands, -⟩ := htidy
  cases e with
  | int | bool | var => exact Shown.isOrdinary hstands (by simp)
  | _ => exact hstands.1.isOrdinary (by simp)

theorem resolved_ok {value : Value} (htidy : e.Tidy a.graph) (h : Check.resolved e.value a = .ok value a') :
    a' = a ∧ IsOrdinary a.graph value := by
  simp only [Check.resolved, bind_eq_ok, lift_isKind_eq_ok, draft_analysis] at h
  obtain ⟨isReference, _, ⟨hkind, rfl⟩, h⟩ := h
  cases isReference with
  | false =>
      obtain ⟨rfl, rfl⟩ := pure_eq_ok.1 h
      exact ⟨rfl, isOrdinary_value htidy⟩
  | true =>
      simp only [if_true, bind_eq_ok, lift_getField_eq_ok, draft_analysis, pure_eq_ok] at h
      obtain ⟨known, _, ⟨hknown, rfl⟩, rfl, rfl⟩ := h
      refine ⟨rfl, ?_⟩
      split
      case isTrue => exact isOrdinary_value htidy
      case isFalse hgiven =>
        rw [Expr.value, Graph.isKind_node, beq_iff_eq] at hkind
        rcases htidy.noted e.id e.id_mem_ids .value known (by simp [hkind, IsNote]) hknown with rfl | hsay
        · exact absurd rfl hgiven
        · simpa only [MaySay, hkind] using hsay

theorem isTypeName_ok {value : Value} {found : Bool} (hordinary : IsOrdinary a.graph value)
    (h : Check.isTypeName value a = .ok found a') : found = false ∧ a' = a := by
  obtain ⟨id, rfl, -, hnone⟩ := hordinary
  simp only [Check.isTypeName, bind_eq_ok, lift_hasField_eq_ok, draft_analysis, Graph.fieldOf?_node, hnone] at h
  obtain ⟨_, _, ⟨rfl, rfl⟩, h⟩ := h
  obtain ⟨rfl, rfl⟩ := pure_eq_ok.1 h
  exact ⟨rfl, rfl⟩

/-- No operand is the name of a type, so there is nothing to expand. -/
theorem compareTypeNames_ok (hleft : left.Tidy a.graph) (hright : right.Tidy a.graph)
    (h : Check.compareTypeNames left.value right.value a = .ok u a') : a' = a := by
  simp only [Check.compareTypeNames, bind_eq_ok, lift_isKind_eq_ok, draft_analysis] at h
  obtain ⟨_, _, ⟨_, _, ⟨rfl, rfl⟩, hl⟩, _, _, ⟨_, _, ⟨rfl, rfl⟩, hr⟩, h⟩ := h
  rw [isCall_value hleft] at hl
  obtain ⟨rfl, rfl⟩ := pure_eq_ok.1 hl
  rw [isCall_value hright] at hr
  obtain ⟨rfl, rfl⟩ := pure_eq_ok.1 hr
  simp only [Bool.or_self, Bool.false_eq_true, if_false, bind_eq_ok] at h
  obtain ⟨_, _, hleftValue, _, _, hrightValue, _, _, hleftName, _, _, hrightName, h⟩ := h
  obtain ⟨rfl, hordinaryLeft⟩ := resolved_ok hleft hleftValue
  obtain ⟨rfl, hordinaryRight⟩ := resolved_ok hright hrightValue
  obtain ⟨rfl, rfl⟩ := isTypeName_ok hordinaryLeft hleftName
  obtain ⟨rfl, rfl⟩ := isTypeName_ok hordinaryRight hrightName
  obtain ⟨-, rfl⟩ := pure_eq_ok.1 h
  rfl

end Operations

/-! ### Expressions -/

section Expressions

variable {typeAt : NodeId → Option Ty} {types : Types} {left right operand : Expr} {a : Analysis} {id : NodeId}
variable {a' : Analysis} {u : Unit} {value node : Value} {leftType rightType : Option Ty}

theorem noted_setField_of_ne {graph : Graph} {other : NodeId} {field : Field} (h : other ≠ id) :
    noted (graph.setField id field value) other = noted graph other := by
  unfold noted Node.get
  rw [Graph.get?_setField_of_ne _ _ (Or.inl h)]

theorem seen_reference {name : String} {ty : Option Ty} (htidy : (Expr.var id name).Tidy a.graph)
    (htype : typeAt id = ty) (hvalue : IsOrdinary a.graph value) :
    Seen typeAt a { a with graph := (a.graph.setField id .type (typeValue ty)).setField id .value value } ∧
      noted ((a.graph.setField id .type (typeValue ty)).setField id .value value) id = ty := by
  have hkind : (a.graph.node id).kind = .reference := htidy.stands.kind
  have hfirst : Retyped a.graph (a.graph.setField id .type (typeValue ty)) := by
    refine retyped_setField (by simp [hkind, IsNote]) ?_
    simp only [MaySay, hkind]
    exact ⟨ty, rfl⟩
  have hsecond : Retyped (a.graph.setField id .type (typeValue ty))
      ((a.graph.setField id .type (typeValue ty)).setField id .value value) := by
    refine retyped_setField (by simp [hkind, IsNote]) ?_
    simp only [MaySay, Graph.kind_setField, hkind]
    exact hfirst.isOrdinary hvalue
  have hself : noted ((a.graph.setField id .type (typeValue ty)).setField id .value value) id = ty := by
    have hget : (((a.graph.setField id .type (typeValue ty)).setField id .value value).node id).get? .type =
        some (typeValue ty) := by
      rw [Graph.get?_setField_of_ne _ _ (Or.inr (by simp)), Graph.get?_setField_self _ _ _ (by simp [hkind])]
    unfold noted
    rw [Node.get_of_get? hget]
    rcases ty with _ | _ | _ <;> rfl
  refine ⟨⟨rfl, hfirst.trans hsecond, fun other _ => ?_⟩, hself⟩
  by_cases hother : other = id
  · subst hother
    exact Or.inr (hself.trans htype.symm)
  · left
    exact (noted_setField_of_ne hother).trans (noted_setField_of_ne hother)

theorem checks_var (id : NodeId) (name : String) : (Expr.var id name).Checks := by
  intro typeAt depth a a' u types ⟨htidy, hknown, hfair⟩ hvisit
  obtain ⟨-, htype, hnoted⟩ := hfair (id, (types.find? name).join) (List.mem_singleton.2 rfl)
  obtain ⟨n, h⟩ := Check.visitWithin_kind htidy.stands.kind hvisit
  simp only [Check.visitNode, Check.visitReference, bind_eq_ok, Check.attribute_eq_ok, Check.table_eq_ok] at h
  obtain ⟨_, _, ⟨hname, rfl⟩, _, _, ⟨rfl, rfl⟩, h⟩ := h
  obtain rfl : _ = Value.text name := htidy.stands.get_eq hname
  rw [show Check.nameText (.text name) = name from rfl] at h
  cases hfound : a.table.lookup? name with
  | none =>
      simp only [hfound] at h
      exact absurd h (Refuses.ne_ok _ _ _)
  | some symbol =>
      simp only [hfound] at h
      rcases hknown.lookup hfound with ⟨ty, hty, hdeclares⟩ | ⟨hnone, hforeign⟩
      · obtain ⟨hvariable, -, entries, value, hdata, htypeEntry, hvalueEntry, hordinary, -⟩ := hdeclares
        simp only [hvariable, if_true, bind_eq_ok, hdata, Symbol.entry_record htypeEntry,
          Symbol.entry_record hvalueEntry, orFail_eq_ok, lift_setField_eq_ok, Except.ok.injEq] at h
        obtain ⟨_, _, ⟨rfl, rfl⟩, _, _, rfl, _, _, ⟨rfl, rfl⟩, rfl⟩ := h
        simp only [hty, Option.join_some] at htype
        obtain ⟨hseen, hself⟩ := seen_reference htidy htype hordinary
        refine ⟨hseen, trivial, fun entry hentry => ?_⟩
        obtain rfl := List.mem_singleton.1 hentry
        exact hself.trans (by simp [hty])
      · simp only [hforeign.noVariable, hforeign.noParameter, Bool.false_eq_true, if_false, pure_eq_ok] at h
        obtain ⟨-, rfl⟩ := h
        refine ⟨Seen.refl _ _, trivial, fun entry hentry => ?_⟩
        obtain rfl := List.mem_singleton.1 hentry
        simpa [hnone] using hnoted

theorem visitLiteral_ok {kind : Kind} {word : String} {isValid : Value → Bool}
    (hshown : Shown a.graph id kind [(.value, value)]) (hvalid : isValid value = true)
    (h : Check.visitLiteral (.node id) word isValid a = .ok u a') : a' = a := by
  simp only [Check.visitLiteral, bind_eq_ok, Check.attribute_eq_ok] at h
  obtain ⟨_, _, ⟨hvalue, rfl⟩, h⟩ := h
  obtain rfl := hshown.get_eq hvalue (List.mem_singleton.2 rfl)
  rw [hvalid] at h
  exact (pure_eq_ok.1 h).2.symm

theorem checkUnary_ok {e : Expr} {operator : String} {ty : Ty} (hsingle : e.IsSingle operand operator ty)
    (htidy : operand.Tidy a.graph) (hfits : operand.Fitting types)
    (hannotated : Annotated (operand.reads types) a.graph)
    (h : Check.checkUnary operand.value (.text operator) a = .ok u a') :
    operand.typeIn types = some ty ∧ ∃ draft, a' = { a with toDraft := draft } ∧ Cached a.toDraft draft := by
  simp only [Check.checkUnary, bind_eq_ok] at h
  obtain ⟨_, _, htype, h⟩ := h
  obtain ⟨rfl, draft, rfl, hcached⟩ := typeOf_fitting htidy hfits hannotated htype
  cases hsingle with
  | neg =>
      rw [if_neg (by decide), if_pos (by decide), Check.ite_refuses, isNumeric_typeValue, decide_eq_true_eq] at h
      exact ⟨h.1, draft, (pure_eq_ok.1 h.2).2.symm, hcached⟩
  | not =>
      rw [if_pos (by decide), Check.ite_refuses, isText_boolean, decide_eq_true_eq] at h
      exact ⟨h.1, draft, (pure_eq_ok.1 h.2).2.symm, hcached⟩

/-- The operand of a sign or a negation is analysed, and then its type is checked. -/
theorem checks_single {e : Expr} {operator : String} {ty : Ty} (hsingle : e.IsSingle operand operator ty)
    (hoperand : operand.Checks) : e.Checks := by
  intro typeAt depth a a' u types hreached hvisit
  obtain ⟨hshown, htidy⟩ := hsingle.tidy hreached.tidy
  have hreachedOperand : operand.Reached typeAt types a := ⟨htidy, hreached.known, by cases hsingle <;> exact hreached.fair⟩
  obtain ⟨n, h⟩ := Check.visitWithin_kind hshown.kind hvisit
  simp only [Check.visitNode, Check.visitUnary, bind_eq_ok, Check.attribute_eq_ok] at h
  obtain ⟨_, _, ⟨hl, rfl⟩, _, a₁, hvisit, _, _, ⟨hl₁, rfl⟩, _, _, ⟨ho, rfl⟩, h⟩ := h
  obtain rfl : _ = operand.value := hshown.get_eq hl
  obtain ⟨hseen, hfits, hannotated⟩ := hoperand hreachedOperand hvisit
  have hshown₁ := hseen.retyped.shown hshown
  obtain rfl : _ = operand.value := hshown₁.get_eq hl₁
  obtain rfl : _ = Value.text operator := hshown₁.get_eq ho
  obtain ⟨htype, draft, rfl, hcached⟩ := checkUnary_ok hsingle (htidy.retyped hseen.retyped) hfits hannotated h
  refine ⟨hseen.trans (seen_of_cached typeAt hcached), ?_⟩
  cases hsingle <;> exact ⟨⟨htype, hfits⟩, hannotated.cached hcached⟩

theorem checkOperands_arith {l r : Value} {op : Arith}
    (h : Check.checkOperands node l r (.text op.symbol) (typeValue leftType) (typeValue rightType) a = .ok u a') :
    (leftType = some .int ∧ rightType = some .int) ∧ a' = a := by
  have harith : (Value.text op.symbol).isOneOf arithmetic = true := by cases op <;> rfl
  have hpower : (Value.text op.symbol).isText "^" = false := by cases op <;> rfl
  simp only [Check.checkOperands, Check.checkArithmetic, harith, hpower, if_true, Bool.false_eq_true, if_false,
    isNumeric_typeValue, Check.ite_refuses, pure_eq_ok, Bool.and_eq_true, decide_eq_true_eq] at h
  exact ⟨h.1, h.2.2.symm⟩

theorem checks_arith (op : Arith) (hleft : left.Checks) (hright : right.Checks) :
    (Expr.arith id op left right).Checks := by
  intro typeAt depth a a' u types hreached hvisit
  have hpair := Expr.IsPair.arith id op left right
  obtain ⟨n, h⟩ := Check.visitWithin_kind hreached.tidy.stands.1.kind hvisit
  simp only [Check.visitNode, Check.visitBinary, bind_eq_ok] at h
  obtain ⟨_, a₁, hpromote, found, a₂, hconcat, h⟩ := h
  have hseen₁ : Seen typeAt a a₁ := promote_ok hpair hreached.tidy hpromote
  obtain ⟨rfl, hseen₂⟩ := concatCheck_ok hpair hleft hright (hreached.seen hseen₁) hconcat
  have hseen := hseen₁.trans hseen₂
  simp only [Bool.false_eq_true, if_false] at h
  obtain ⟨hseen₃, ⟨⟨hl, hr⟩, hfitLeft, hfitRight⟩, hannotated⟩ :=
    visitOperands_ok hpair hleft hright (hreached.seen hseen) (fun b _ _ hb => checkOperands_arith hb) h
  exact ⟨hseen.trans hseen₃, ⟨⟨hl, hfitLeft⟩, hr, hfitRight⟩, hannotated⟩

theorem isSame_typeValue (l r : Option Ty) : Check.isSame (typeValue l) (typeValue r) = decide (l = r) := by
  rcases l with _ | _ | _ <;> rcases r with _ | _ | _ <;> rfl

theorem areMixedNumbers_typeValue (l r : Option Ty) :
    Check.areMixedNumbers (typeValue l) (typeValue r) = false := by
  rcases l with _ | _ | _ <;> rcases r with _ | _ | _ <;> rfl

theorem checkOperands_compare {relation : Ir.Relation} (hleft : left.Tidy a.graph) (hright : right.Tidy a.graph)
    (h : Check.checkOperands node left.value right.value (.text (relationSymbol relation)) (typeValue leftType)
      (typeValue rightType) a = .ok u a') : (leftType ≠ none ∧ rightType ≠ none) ∧ a' = a := by
  have harith : (Value.text (relationSymbol relation)).isOneOf arithmetic = false := by cases relation <;> rfl
  have hcompare : (Value.text (relationSymbol relation)).isOneOf Check.comparisons = true := by
    cases relation <;> rfl
  simp only [Check.checkOperands, Check.checkComparison, harith, hcompare, if_true, Bool.false_eq_true, if_false,
    isSame_typeValue, areMixedNumbers_typeValue, isOneOf_comparableTypes, isText_string, Bool.false_and] at h
  rw [Check.refuses_ite, Check.refuses_ite] at h
  obtain ⟨hsame, hgiven, h⟩ := h
  obtain rfl : leftType = rightType := by simpa using hsame
  have hne : leftType ≠ none := by simpa using hgiven
  exact ⟨⟨hne, hne⟩, compareTypeNames_ok hleft hright h⟩

theorem checkOperands_logic {l r : Value} {op : Logic}
    (h : Check.checkOperands node l r (.text op.symbol) (typeValue leftType) (typeValue rightType) a = .ok u a') :
    (leftType = some .bool ∧ rightType = some .bool) ∧ a' = a := by
  have harith : (Value.text op.symbol).isOneOf arithmetic = false := by cases op <;> rfl
  have hcompare : (Value.text op.symbol).isOneOf Check.comparisons = false := by cases op <;> rfl
  have hlogic : (Value.text op.symbol).isOneOf ["&&", "||"] = true := by cases op <;> rfl
  simp only [Check.checkOperands, harith, hcompare, hlogic, if_true, Bool.false_eq_true, if_false,
    isText_boolean, Check.ite_refuses, pure_eq_ok, Bool.and_eq_true, decide_eq_true_eq] at h
  exact ⟨h.1, h.2.2.symm⟩

theorem checks_compare (relation : Ir.Relation) (hleft : left.Checks) (hright : right.Checks) :
    (Expr.compare id relation left right).Checks := by
  intro typeAt depth a a' u types hreached hvisit
  have hpair := Expr.IsPair.compare id relation left right
  obtain ⟨n, h⟩ := Check.visitWithin_kind hreached.tidy.stands.1.kind hvisit
  obtain ⟨_, a₁, hpromote, h⟩ := bind_eq_ok.1 h
  have hseen : Seen typeAt a a₁ := promote_ok hpair hreached.tidy hpromote
  obtain ⟨hseen₁, ⟨⟨hl, hr⟩, hfitLeft, hfitRight⟩, hannotated⟩ := visitOperands_ok hpair hleft hright (hreached.seen hseen)
    (fun b htidyLeft htidyRight hb => checkOperands_compare htidyLeft htidyRight hb) h
  exact ⟨hseen.trans hseen₁, ⟨⟨hl, hfitLeft⟩, hr, hfitRight⟩, hannotated⟩

theorem checks_logic (op : Logic) (hleft : left.Checks) (hright : right.Checks) :
    (Expr.logic id op left right).Checks := by
  intro typeAt depth a a' u types hreached hvisit
  have hpair := Expr.IsPair.logic id op left right
  obtain ⟨n, h⟩ := Check.visitWithin_kind hreached.tidy.stands.1.kind hvisit
  obtain ⟨_, a₁, hpromote, h⟩ := bind_eq_ok.1 h
  have hseen : Seen typeAt a a₁ := promote_ok hpair hreached.tidy hpromote
  obtain ⟨hseen₁, ⟨⟨hl, hr⟩, hfitLeft, hfitRight⟩, hannotated⟩ := visitOperands_ok hpair hleft hright (hreached.seen hseen)
    (fun b _ _ hb => checkOperands_logic hb) h
  exact ⟨hseen.trans hseen₁, ⟨⟨hl, hfitLeft⟩, hr, hfitRight⟩, hannotated⟩

theorem checks_literal {e : Expr} {kind : Kind} {word : String} {isValid : Value → Bool}
    (hstands : ∀ graph, e.Stands graph → Shown graph e.id kind [(.value, value)]) (hvalid : isValid value = true)
    (hvisit : ∀ visit node, Check.visitNode visit node kind = Check.visitLiteral node word isValid)
    (hfits : ∀ types, e.Fitting types ∧ e.reads types = []) : e.Checks := by
  intro typeAt depth a a' u types hreached h
  have hshown := hstands _ hreached.tidy.stands
  obtain ⟨n, h⟩ := Check.visitWithin_kind hshown.kind h
  rw [hvisit] at h
  obtain rfl := visitLiteral_ok hshown hvalid h
  exact ⟨Seen.refl _ _, (hfits types).1, by simp [(hfits types).2, Annotated]⟩

theorem Expr.checks (e : Expr) : e.Checks := by
  induction e with
  | int id value => exact checks_literal (fun _ h => h) rfl (fun _ _ => rfl) fun _ => ⟨trivial, rfl⟩
  | bool id value => exact checks_literal (fun _ h => h) (by cases value <;> rfl) (fun _ _ => rfl) fun _ => ⟨trivial, rfl⟩
  | var id name => exact checks_var id name
  | neg id operand hoperand => exact checks_single (.neg id operand) hoperand
  | not id operand hoperand => exact checks_single (.not id operand) hoperand
  | arith id op left right hleft hright => exact checks_arith op hleft hright
  | compare id relation left right hleft hright => exact checks_compare relation hleft hright
  | logic id op left right hleft hright => exact checks_logic op hleft hright

end Expressions

end Core

end Scriptlet
