import Scriptlet.Proofs.Check.Reading
import Scriptlet.Proofs.Check.Replacing

/-!
The work of the analysis on expressions: promotion, the checks of operands, and concatenation.
-/

set_option synthInstance.maxSize 1000000

namespace Scriptlet

namespace Check

variable {α : Type} {site : Site} {s t : Analysis} {id : Nat} {value : Value} {field : Field}
variable {operand node left operator right leftType rightType : Value} {f : Value → Check α}

theorem conduct.below_bind (hid : site.Owns id)
    (hfield : field ∈ (site.origin.node id).kind.links ∨ (site.origin.node id).kind.hasOperand field)
    (hf : ∀ found, site.Has found → Obeys (conduct site) (f found)) :
    Obeys (conduct site) (liftM (Draft.getField (.node id) field) >>= f) := by
  refine conduct.getField_bind fun s found htame hget => (hf found ?_).allows s
  rw [← Node.get_of_get? hget]
  exact htame.holds.has hid hfield

theorem conduct.link_bind {kind : Kind} (hid : site.Owns id) (hkind : (site.origin.node id).kind = kind)
    (hlink : field ∈ kind.links) (hf : ∀ found, site.Has found → Obeys (conduct site) (f found)) :
    Obeys (conduct site) (liftM (Draft.getField (.node id) field) >>= f) :=
  conduct.below_bind hid (.inl (hkind ▸ hlink)) hf

theorem hasOperand_side (kind : Kind) (hfield : field = .left ∨ field = .right) : kind.hasOperand field := by
  rcases hfield with rfl | rfl
  · exact Kind.hasOperand_of_ne (by decide) (.inr (by decide))
  · exact Kind.hasOperand_of_ne (by decide) (.inr (by decide))

/-- The operand on a side of a node; a value that has one is a node of the site. -/
theorem conduct.side_bind (hvalue : site.Has value) (hfield : field = .left ∨ field = .right)
    (hf : ∀ id : Nat, value = .node id → site.Owns id → ∀ found, site.Has found →
      Obeys (conduct site) (f found)) : Obeys (conduct site) (liftM (Draft.getField value field) >>= f) := by
  refine conduct.getField_bind fun s found htame hget => ?_
  obtain ⟨id, rfl, hid⟩ := htame.holds.node_of_side hvalue hfield hget
  refine (hf id rfl hid found ?_).allows s
  rw [← Node.get_of_get? hget]
  exact htame.holds.has hid (.inr (hasOperand_side _ hfield))

/-- A new node of a kind. -/
structure Makes (kind : Kind) (s : Analysis) (value : Value) (t : Analysis) : Prop where
  value : value = .node s.graph.nodes.size
  graph : ∃ fields, t.graph = (s.graph.add ⟨kind, fields⟩).2

namespace Makes

variable {kind : Kind}

theorem of_addNode {fields : List (Field × Value)}
    (h : (liftM (Draft.addNode kind fields) : Check Value) s = .ok value t) : Makes kind s value t := by
  obtain ⟨draft, hadd, rfl⟩ := lift_eq_ok.1 h
  obtain ⟨rfl, rfl⟩ := Draft.addNode_eq_ok.1 hadd
  exact ⟨rfl, fields, rfl⟩

theorem kind_new (h : Makes kind s value t) : (t.graph.node s.graph.nodes.size).kind = kind := by
  obtain ⟨fields, hgraph⟩ := h.graph
  rw [hgraph, Graph.node_add, if_pos rfl]

theorem node_of_lt (h : Makes kind s value t) {other : Nat} (hother : other < s.graph.nodes.size) :
    t.graph.node other = s.graph.node other := by
  obtain ⟨fields, hgraph⟩ := h.graph
  rw [hgraph, Graph.node_add, if_neg (Nat.ne_of_lt hother)]

end Makes

/-! ### Promotion -/

theorem promoted_eq_ok {literal promotion : Value} (h : promoted literal s = .ok promotion t) :
    (∃ content, s.graph.fieldOf? literal .value = some content) ∧ Makes .double s promotion t := by
  unfold promoted at h
  simp only [bind_eq_ok, lift_getField_eq_ok] at h
  obtain ⟨content, _, ⟨hcontent, rfl⟩, x, u, hdouble, hnew⟩ := h
  have hgraph : u.graph = s.graph := reading.graph (Obeys.step hdouble)
  obtain ⟨hvalue, fields, hadd⟩ := Makes.of_addNode hnew
  exact ⟨⟨content, hcontent⟩, by rw [hvalue, hgraph], fields, by rw [hadd, hgraph]⟩

instance (literal : Value) : Obeys (conduct site) (promoted literal) := by
  unfold promoted
  infer_instance

/-- A double takes the place of an operand: what has a value is no call. -/
theorem allows_promote (hid : site.Owns id) (hfield : field ∈ Draft.operandFields)
    (hoperand : (s.graph.node id).get? field = some operand)
    (hf : ∀ promotion t, (conduct site).Allows t ((liftM (Draft.setField (.node id) field promotion) : Check Unit) t) →
      (conduct site).Allows t (f promotion t)) : (conduct site).Allows s ((promoted operand >>= f) s) := by
  refine conduct.assume fun htame => ?_
  refine Rule.Allows.bind ((inferInstance : Obeys (conduct site) (promoted operand)).allows s) fun promotion t hrun => ?_
  obtain ⟨⟨content, hcontent⟩, hmakes⟩ := promoted_eq_ok hrun
  have hlt : id < site.origin.nodes.size := hid.lt_size
  have hsize := htame.holds.derived.size_le
  have hsame : (t.graph.node id).get? field = some operand := by rw [hmakes.node_of_lt (hlt.trans_le hsize), hoperand]
  refine hf promotion t ?_
  rw [hmakes.value]
  refine allows_lift fun _ => Draft.allows_substitute hsize (by rw [hmakes.kind_new]; rfl) hlt (.inr hid.1) hfield hsame ?_ ?_
  · rintro rfl
    cases hcontent
  rintro other rfl hcall
  rw [Graph.fieldOf?_node] at hcontent
  rw [hmakes.node_of_lt (Graph.lt_size_of_get? hcontent)] at hcall
  rw [htame.holds.derived.value_of_call site.wellLaid hcall] at hcontent
  cases hcontent

theorem conduct_clearCache (hid : site.Owns id) (content : Value) :
    Obeys (conduct site) (liftM (Draft.setField (.node id) .cachedType content)) := by
  have : Obeys (Draft.conduct site) (Draft.setField (.node id) .cachedType content) :=
    Draft.conduct_setField hid (by simp [Kind.keeps]) (by decide)
  infer_instance

theorem conduct_promoteSide {below : Value → Check Unit} (type : Value) (hid : site.Owns id) (hfield : field = .left ∨ field = .right) (hbelow : ∀ operand, site.Has operand → Obeys (conduct site) (below operand)) :
    Obeys (conduct site) (promoteSide below (.node id) field type) := by
  have hcache := conduct_clearCache hid .null
  have hmem : field ∈ Draft.operandFields := Kind.mem_of_hasOperand (hasOperand_side .plain hfield)
  unfold promoteSide
  split
  case isFalse => infer_instance
  case isTrue =>
    refine conduct.getField_bind fun s operand htame hget => ?_
    have hoperand : site.Has operand := by
      rw [← Node.get_of_get? hget]
      exact htame.holds.has hid (.inr (hasOperand_side _ hfield))
    have := hbelow operand hoperand
    refine Rule.Allows.bind (Obeys.allows s) fun isInteger t hrun => ?_
    obtain ⟨-, rfl⟩ := lift_isKind_eq_ok.1 hrun
    split
    · exact allows_promote hid hmem hget fun promotion t hset => hset.bind fun _ u _ => hcache.allows u
    · exact Obeys.allows s

theorem conduct_promoteWithin (type : Value) : ∀ depth node, site.Has node →
    Obeys (conduct site) (promoteWithin depth type node)
  | 0, _, _ => inferInstanceAs (Obeys (conduct site) (fail .tooDeep))
  | depth + 1, node, hnode => by
      have hbelow := conduct_promoteWithin type depth
      refine conduct.side_bind hnode (.inl rfl) fun id hvalue hid left hleft => ?_
      subst hvalue
      have := fun side => conduct_promoteSide side hid (.inl rfl) hbelow
      have := fun side => conduct_promoteSide side hid (.inr rfl) hbelow
      infer_instance

theorem conduct_promote (hvalue : site.Has value) : Obeys (conduct site) (promote value) := by
  have := fun type => conduct_promoteWithin type walkDepth value hvalue
  unfold promote
  infer_instance

theorem conduct_promotePowerWithin : ∀ depth type node, site.Has node →
    Obeys (conduct site) (promotePowerWithin depth type node)
  | 0, _, _, _ => inferInstanceAs (Obeys (conduct site) (fail .tooDeep))
  | depth + 1, type, node, hnode => by
      have hbelow := conduct_promotePowerWithin depth
      unfold promotePowerWithin
      split
      case isTrue => infer_instance
      case isFalse =>
        refine .bind inferInstance fun isReference => ?_
        split
        case isTrue => infer_instance
        case isFalse =>
          extract_lets sides
          have hsides : ∀ type, Obeys (conduct site) (sides type) := by
            intro type
            refine conduct.side_bind hnode (.inl rfl) fun id hvalue hid left hleft => ?_
            subst hvalue
            have := fun side => conduct_promoteSide side hid (.inl rfl) (hbelow type)
            have := fun side => conduct_promoteSide side hid (.inr rfl) (hbelow type)
            infer_instance
          infer_instance

theorem conduct_promotePower (hvalue : site.Has value) : Obeys (conduct site) (promotePower value) :=
  conduct_promotePowerWithin walkDepth .null value hvalue

/-! ### Checks of operands -/

theorem not_isGiven_isTypeName {graph : Graph} {mark : Value} (h : site.Holds graph)
    (hvisible : site.origin.Visible graph operand) (hmark : graph.fieldOf? operand .isTypeName = some mark) :
    mark.isGiven = false := by
  cases operand with
  | node id =>
      rw [Graph.fieldOf?_node] at hmark
      have hnull : mark.isNull := by
        rw [← Node.get_of_get? hmark]
        by_cases hlt : id < site.origin.nodes.size
        · rw [h.derived.get_of_keeps hlt rfl]
          have hunmarked := site.wellLaid.unmarked id hlt
          unfold Node.isUnmarked at hunmarked
          exact (Bool.and_eq_true_iff.1 hunmarked).1
        · have hnode := h.derived.late id (Nat.le_of_not_lt hlt) (Graph.lt_size_of_get? hmark)
          rw [hnode.isTypeName ((hvisible id rfl).resolve_left hlt)]
          rfl
      cases mark with
      | scalar word =>
          cases word with
          | null => rfl
          | _ => cases hnull
      | _ => cases hnull
  | _ => cases hmark

theorem isTypeName_eq_ok {holds : Bool} (htame : s.Tame site) (hvisible : site.origin.Visible s.graph operand)
    (h : isTypeName operand s = .ok holds t) : holds = false ∧ t = s := by
  unfold isTypeName at h
  simp only [bind_eq_ok, lift_hasField_eq_ok, draft_analysis] at h
  obtain ⟨has, _, ⟨-, rfl⟩, hrest⟩ := h
  cases has with
  | false =>
      obtain ⟨rfl, rfl⟩ := pure_eq_ok.1 hrest
      exact ⟨rfl, rfl⟩
  | true =>
      simp only [if_true, bind_eq_ok, lift_getField_eq_ok, pure_eq_ok] at hrest
      obtain ⟨mark, _, ⟨hmark, rfl⟩, rfl, rfl⟩ := hrest
      exact ⟨not_isGiven_isTypeName htame.holds hvisible hmark, rfl⟩

/-- What an operand stands for stands in the program as well. -/
theorem resolved_eq_ok {found : Value} (htame : s.Tame site) (hvisible : site.origin.Visible s.graph operand)
    (h : resolved operand s = .ok found t) : site.origin.Visible s.graph found ∧ t = s := by
  unfold resolved at h
  simp only [bind_eq_ok, lift_isKind_eq_ok, draft_analysis] at h
  obtain ⟨isReference, _, ⟨hkind, rfl⟩, hrest⟩ := h
  cases isReference with
  | false =>
      obtain ⟨rfl, rfl⟩ := pure_eq_ok.1 hrest
      exact ⟨hvisible, rfl⟩
  | true =>
      simp only [if_true, bind_eq_ok, lift_getField_eq_ok, pure_eq_ok] at hrest
      obtain ⟨value, _, ⟨hvalue, rfl⟩, rfl, rfl⟩ := hrest
      refine ⟨?_, rfl⟩
      split
      · exact hvisible
      · cases operand with
        | node id =>
            rw [Graph.isKind_node, beq_iff_eq] at hkind
            have hlt := htame.holds.derived.lt_of_kind hkind rfl (by decide)
            rw [← Node.get_of_get? hvalue]
            exact htame.holds.derived.reference id hlt ((htame.holds.derived.kind id hlt).symm.trans hkind)
        | _ => cases hvalue

theorem conduct_compareTypeNames (hvisible : ∀ graph, site.Holds graph →
    site.origin.Visible graph left ∧ site.origin.Visible graph right) :
    Obeys (conduct site) (compareTypeNames left right) := by
  unfold compareTypeNames
  extract_lets isQuestion compare
  -- No name of a type is found, so nothing is changed.
  have hcompare : ∀ u, Obeys (conduct site) (compare u) := by
    refine fun _ => ⟨fun s => conduct.assume fun htame => ?_⟩
    obtain ⟨hleft, hright⟩ := hvisible s.graph htame.holds
    refine Rule.Allows.bind (Obeys.allows s) fun left t hrun => ?_
    obtain ⟨hleft, rfl⟩ := resolved_eq_ok htame hleft hrun
    refine Rule.Allows.bind (Obeys.allows _) fun right t hrun => ?_
    obtain ⟨hright, rfl⟩ := resolved_eq_ok htame hright hrun
    refine Rule.Allows.bind (Obeys.allows _) fun isLeft t hrun => ?_
    obtain ⟨rfl, rfl⟩ := isTypeName_eq_ok htame hleft hrun
    refine Rule.Allows.bind (Obeys.allows _) fun isRight t hrun => ?_
    obtain ⟨rfl, rfl⟩ := isTypeName_eq_ok htame hright hrun
    exact (inferInstance : Obeys (conduct site) (pure ())).allows _
  have hquestion : ∀ operand, Obeys (conduct site) (isQuestion operand) := by
    intro operand
    unfold isQuestion
    infer_instance
  clear_value isQuestion compare
  dsimp only
  infer_instance

theorem conduct_checkArithmetic (hvalue : site.Has value) :
    Obeys (conduct site) (checkArithmetic value left leftType rightType operator) := by
  have := conduct_promotePower hvalue
  unfold checkArithmetic
  infer_instance

theorem conduct_checkComparison (hvisible : ∀ graph,
      site.Holds graph → site.origin.Visible graph left ∧ site.origin.Visible graph right) :
    Obeys (conduct site) (checkComparison node left right leftType rightType operator) := by
  have := conduct_compareTypeNames hvisible
  unfold checkComparison
  dsimp only
  infer_instance

theorem conduct_checkOperands (hvalue : site.Has value)
    (hvisible : ∀ graph, site.Holds graph → site.origin.Visible graph left ∧ site.origin.Visible graph right) :
    Obeys (conduct site) (checkOperands value left right operator leftType rightType) := by
  have harithmetic : Obeys (conduct site) (checkArithmetic value left leftType rightType operator) :=
    conduct_checkArithmetic hvalue
  have hcomparison : Obeys (conduct site) (checkComparison value left right leftType rightType operator) :=
    conduct_checkComparison hvisible
  unfold checkOperands
  infer_instance

theorem conduct_checkOperation (hid : site.Owns id) : Obeys (conduct site) (checkOperation (.node id)) := by
  refine conduct.getField_bind fun s left htame hleft => ?_
  refine Rule.Allows.bind (Obeys.allows s) fun right t hrun => ?_
  obtain ⟨hright, rfl⟩ := lift_getField_eq_ok.1 hrun
  have hvisible : ∀ field found, field = .left ∨ field = .right → (s.graph.node id).get? field = some found →
      site.origin.Visible s.graph found := by
    intro field found hfield hget
    rw [← Node.get_of_get? hget]
    exact (htame.holds.derived.operand id field hid.lt_size (hasOperand_side _ hfield)).visible
  -- Both operands stand in the program, and they still do when they are compared.
  let fact : Graph → Prop := fun graph => site.origin.Visible graph left ∧ site.origin.Visible graph right
  have hfact : site.Lasts fact := fun _ _ hspares h => ⟨hspares.visible h.1, hspares.visible h.2⟩
  refine conduct.of_when hfact ⟨hvisible .left left (.inl rfl) hleft, hvisible .right right (.inr rfl) hright⟩ ?_
  have hcheck : ∀ operator leftType rightType, Obeys (conduct (site.when fact hfact))
      (checkOperands (.node id) left right operator leftType rightType) :=
    fun _ _ _ => conduct_checkOperands (Site.has_node.2 (.inl hid)) fun _ hholds => hholds.given.2
  exact Obeys.allows s

instance : Obeys (conduct site) (checkCondition node) := by
  unfold checkCondition
  infer_instance

instance : Obeys (conduct site) (checkUnary operand operator) := by
  unfold checkUnary
  dsimp only
  infer_instance

/-! ### Concatenation -/

instance : Obeys (conduct site) (isTextSum node) := by
  unfold isTextSum
  infer_instance

instance : Obeys (conduct site) (typeText node) := by
  unfold typeText
  infer_instance

section Visiting

variable {visit : Value → Check Unit} (hvisit : ∀ value, site.Has value → Obeys (conduct site) (visit value))

include hvisit

theorem conduct_partsWithin : ∀ depth node, site.Has node → Obeys (conduct site) (partsWithin visit depth node)
  | 0, _, _ => inferInstanceAs (Obeys (conduct site) (fail .tooDeep))
  | depth + 1, node, hnode => by
      have hparts := conduct_partsWithin depth
      have := hvisit node hnode
      have hscope : ∀ content, Obeys (Draft.conduct site) (Draft.setField node .scope content) :=
        fun _ => Draft.conduct_mark _ (by decide)
      refine .bind inferInstance fun isSum => ?_
      split
      · refine conduct.side_bind hnode (.inl rfl) fun id hvalue hid left hleft => ?_
        subst hvalue
        have := hparts left hleft
        refine .bind inferInstance fun leftParts => ?_
        refine conduct.side_bind hnode (.inr rfl) fun _ _ _ right hright => ?_
        have := hparts right hright
        infer_instance
      · infer_instance

theorem conduct_toConcat (hid : site.Owns id) (hkind : (site.origin.node id).kind = .binary) :
    Obeys (conduct site) (toConcat visit (.node id)) := by
  have hnode : site.Has (.node id) := Site.has_node.2 (.inl hid)
  have := conduct_partsWithin hvisit walkDepth _ hnode
  unfold toConcat
  refine .bind inferInstance fun isBinary => ?_
  split
  case isFalse => infer_instance
  case isTrue =>
    refine .bind inferInstance fun parts => .bind inferInstance fun parent => .bind inferInstance fun line => ?_
    refine ⟨fun s => conduct.assume fun htame => ?_⟩
    refine Rule.Allows.bind (Obeys.allows s) fun concat t hrun => ?_
    obtain ⟨rfl, -⟩ := Makes.of_addNode hrun
    have hsize := htame.holds.derived.size_le
    have hmark : Obeys (Draft.conduct site) (Draft.setField (.node id) .transformed (.bool true)) :=
      Draft.conduct_mark _ (by decide)
    have hrecord : Obeys (conduct site) (modify fun analysis : Analysis =>
        { analysis with concats := analysis.concats ++ [.node s.graph.nodes.size] }) := by
      refine .modify fun t htame => ⟨⟨htame.holds, htame.symbols, fun concat hconcat => ?_⟩, .refl ..⟩
      rcases List.mem_append.1 hconcat with hold | hnew
      · exact htame.concats concat hold
      · exact ⟨_, List.mem_singleton.1 hnew, hsize⟩
    refine Rule.Allows.bind (allows_lift fun _ => ?_) fun _ u _ => Obeys.allows u
    exact Draft.allows_replace hid hkind hsize (by rw [(Makes.of_addNode hrun).kind_new]; rfl)

theorem conduct_concatCheck (hid : site.Owns id) (hkind : (site.origin.node id).kind = .binary) :
    Obeys (conduct site) (concatCheck visit (.node id)) := by
  have := conduct_toConcat hvisit hid hkind
  have hnode : site.Has (.node id) := Site.has_node.2 (.inl hid)
  refine conduct.side_bind hnode (.inl rfl) fun _ _ _ left hleft => ?_
  refine conduct.side_bind hnode (.inr rfl) fun _ _ _ right hright => ?_
  have := hvisit left hleft
  have := hvisit right hright
  infer_instance

/-! ### Operations -/

theorem conduct_visitOperands (hid : site.Owns id) :
    Obeys (conduct site) (visitOperands visit (.node id)) := by
  have := conduct_checkOperation hid
  have hnode : site.Has (.node id) := Site.has_node.2 (.inl hid)
  refine conduct.side_bind hnode (.inl rfl) fun _ _ _ left hleft => ?_
  have := hvisit left hleft
  refine .bind inferInstance fun _ => ?_
  refine conduct.side_bind hnode (.inr rfl) fun _ _ _ right hright => ?_
  have := hvisit right hright
  infer_instance

theorem conduct_visitComparison (hid : site.Owns id) :
    Obeys (conduct site) (visitComparison visit (.node id)) := by
  have := conduct_promote (Site.has_node.2 (.inl hid))
  have := conduct_visitOperands hvisit hid
  unfold visitComparison
  infer_instance

theorem conduct_visitBinary (hid : site.Owns id) (hkind : (site.origin.node id).kind = .binary) :
    Obeys (conduct site) (visitBinary visit (.node id)) := by
  have := conduct_promote (Site.has_node.2 (.inl hid))
  have := conduct_concatCheck hvisit hid hkind
  have := conduct_visitOperands hvisit hid
  unfold visitBinary
  infer_instance

theorem conduct_visitUnary (hid : site.Owns id) :
    Obeys (conduct site) (visitUnary visit (.node id)) := by
  refine conduct.side_bind (Site.has_node.2 (.inl hid)) (.inl rfl) fun _ _ _ left hleft => ?_
  have := hvisit left hleft
  infer_instance

end Visiting

/-! ### Joining -/

instance : Obeys (conduct site) (operandText operand) := by
  unfold operandText
  infer_instance

instance : Obeys (conduct site) (referenceText node) := by
  refine .bind inferInstance fun name => .bind inferInstance fun table => .bind inferInstance fun scope => ?_
  dsimp only
  split <;> infer_instance

instance (joining : Joining) (part : Value) : Obeys (conduct site) (joinPart joining part) := by
  refine .bind inferInstance fun graph => ?_
  dsimp only
  split
  · refine .bind inferInstance fun content => ?_
    split
    · infer_instance
    · refine .bind inferInstance fun text => ?_
      split <;> infer_instance
  all_goals infer_instance

theorem conduct_joinConcat (hid : site.origin.nodes.size ≤ id) : Obeys (conduct site) (joinConcat (.node id)) := by
  have hset : ∀ field ∈ [Field.parent, .evaluated, .strings, .transformed], ∀ content,
      Obeys (Draft.conduct site) (Draft.setField (.node id) field content) :=
    fun _ hfield _ => Draft.conduct_setLate hid hfield
  have := hset .evaluated (by decide)
  have := hset .strings (by decide)
  unfold joinConcat
  infer_instance

end Check

end Scriptlet
