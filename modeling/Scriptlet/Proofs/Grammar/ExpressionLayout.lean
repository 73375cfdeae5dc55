import Scriptlet.Proofs.Grammar.Sketch

/-!
Expressions are laid out well: every rule for expressions grows the sketch, its result is there, and the focus is
as before or lost.
-/

set_option synthInstance.maxSize 10000000

namespace Scriptlet.Parse

open Sketch (Holds Row)

variable {kind : Kind} {value : Value} {values rest : List Value}
variable {node : Node} {operators : List TokenKind} {operand : Parse Value}
  {join : Value → Value → Value → Parse Value}
variable {base sketch middle later : Sketch} {x : Parse Value} {count : Nat}

/-- Values that were read, with the focus as before or lost. -/
structure Drawn (base : Sketch) (values : List Value) (later : Sketch) : Prop extends base.Holds values later where
  focus : later.focus = base.focus ∨ later.focus = .null

/-- A rule for expressions. -/
def Draws (x : Parse Value) : Prop :=
  ∀ base, base.Focused → Leads base x fun value => Drawn base [value]

theorem Drawn.nil (h : base.Focused) : Drawn base [] base :=
  ⟨.nil (.refl h), .inl rfl⟩

theorem Drawn.append (h : Drawn base values middle) (h' : Drawn middle rest later) : Drawn base (values ++ rest) later := by
  refine ⟨h.toHolds.append h'.toHolds, ?_⟩
  rcases h'.focus with hsame | hnull
  · rw [hsame]
    exact h.focus
  · exact .inr hnull

theorem Drawn.one (h : Drawn base (value :: values) later) : Drawn base [value] later :=
  ⟨h.toHolds.subset (by simp), h.focus⟩

/-- The node in focus is the one of the start, or there is none. -/
theorem Drawn.offers (h : Drawn base values later) : base.Offers later later.focus := by
  rcases h.focus with hsame | hnull
  · exact .inr hsame
  · rw [hnull]
    exact .null

theorem Drawn.addBare (h : Drawn base values sketch) (hbare : node.kind.isBare) (hmarks : node.isUnmarked)
    (hchildren : node.children ⊆ values) (hparent : base.Offers sketch (node.get .parent)) :
    Drawn base (.node sketch.size :: values) (sketch.add node) :=
  ⟨h.toHolds.addBare hbare hmarks hchildren hparent, h.focus⟩

/-! ### Operators -/

/-- A way to join two operands into a new node. -/
def Joins (join : Value → Value → Value → Parse Value) : Prop :=
  ∀ base sketch left operator right, Drawn base [left, right] sketch →
    Leads sketch (join left operator right) fun value => Drawn base [value]

theorem joins_joinLogical : Joins joinLogical :=
  fun _ _ _ _ _ h => .still_bind fun _ => .add (h.addBare rfl rfl (.refl _) .null).one

/-- The line stands in the place of the parent. -/
theorem joins_joinProduct : Joins joinProduct := by
  intro base sketch left operator right h cursor value after hcursor haccounts hrun hquiet
  have hadded (line : Nat) : Leads sketch (liftM (Draft.newBinary left operator right (.int line))) fun value =>
      Drawn base [value] := .add (h.addBare rfl rfl (.refl _) (.inl Value.spans_scalar)).one
  exact hadded _ hcursor haccounts hrun hquiet

theorem leads_setParents {left right : Value} (hleft : node.get .left = left) (hright : node.get .right = right)
    (hkind : node.kind = .comparison ∨ node.kind = .binary) (h : Drawn base [left, right] sketch)
    (hnode : Drawn base [.node sketch.size, left, right] (sketch.add node)) :
    Leads (sketch.add node)
      (do
        Draft.setField left .parent (.node sketch.size)
        Draft.setField right .parent (.node sketch.size)
        return .node sketch.size)
      fun value => Drawn base [value] := by
  have hencloses : ∀ id : Nat, left = .node id ∨ right = .node id → ∀ {graph : Graph}, graph.node sketch.size = node →
      graph.Encloses sketch.size id := by
    intro id hid graph hgraph
    unfold Graph.Encloses
    rw [hgraph, hleft, hright]
    rcases hkind with hkind | hkind <;> rw [hkind] <;> exact hid
  refine .set_bind fun id hid => ?_
  have hbounds := Value.spans_node.1 (hid ▸ (h.has left (by simp)).spans)
  have hfirst := hnode.adopt hbounds fun _ => hencloses id (.inl hid)
  rw [Sketch.set_add_of_lt _ _ _ _ hbounds.2]
  refine .set_bind fun other hother => .pure ?_
  have hbounds' := Value.spans_node.1 (hother ▸ (h.has right (by simp)).spans)
  have hsecond := hfirst.adopt (by simpa using hbounds') fun graph hgraph => by
    rw [Sketch.size_set] at hgraph ⊢
    exact hencloses other (.inr hother) hgraph
  rw [Sketch.set_add_of_lt _ _ _ _ (by simpa using hbounds'.2)]
  rw [Sketch.size_set] at hsecond
  exact Drawn.one ⟨hsecond, h.focus⟩

theorem joins_joinComparison : Joins joinComparison :=
  fun _ _ _ _ _ h => .still_bind fun _ =>
    .add_bind (leads_setParents rfl rfl (.inl rfl) h (h.addBare rfl rfl (.refl _) .null))

theorem joins_joinSum : Joins joinSum := by
  intro base sketch left operator right h
  refine .get_bind fun cursor hcursor => .still_bind fun line => .add_bind ?_
  refine leads_setParents rfl rfl (.inr rfl) h (h.addBare rfl rfl (.refl _) ?_)
  subst hcursor
  exact h.offers

theorem leads_leftChain [Candid operand] [∀ left operator right, Candid (join left operator right)]
    (hoperand : Draws operand) (hjoin : Joins join) : ∀ count base sketch left, Drawn base [left] sketch →
      Leads sketch (leftChain operators operand join count left) fun value => Drawn base [value]
  | 0, _, _, _, _ => .fail
  | count + 1, base, sketch, left, hleft => by
      refine .still_bind fun holds => .ite (.still_bind fun operator => .still_bind fun _ => ?_) (.pure hleft)
      refine (hoperand sketch hleft.grown.later_focused).bind fun right later hright => ?_
      refine (hjoin _ _ _ _ _ (hleft.append hright)).bind fun joined last hjoined => ?_
      exact leads_leftChain hoperand hjoin count base last joined hjoined

theorem draws_leftChain {first : Parse Value} [Candid first] [Candid operand]
    [∀ left operator right, Candid (join left operator right)] (hfirst : Draws first) (hoperand : Draws operand)
    (hjoin : Joins join) (count : Nat) : Draws (do leftChain operators operand join count (← first)) :=
  fun base hfocused => (hfirst base hfocused).bind fun left later hleft =>
    leads_leftChain hoperand hjoin count base later left hleft

/-! ### Lists -/

section Lists

variable {told : Sketch → List Value → Sketch → Prop}

/-- What is read again and again can be told of the whole list if it can be put together. -/
theorem leads_repeatUntil {kinds : List TokenKind} {body : Parse (List Value)} [Candid body]
    (hend : ∀ {base items later}, told base items later → told later [] later)
    (happend : ∀ {base middle later items rest}, told base items middle → told middle rest later →
      told base (items ++ rest) later)
    (hbody : ∀ base, told base [] base → Leads base body (told base)) :
    ∀ count base, told base [] base → Leads base (repeatUntil kinds body count) (told base)
  | 0, _, _ => .fail
  | count + 1, base, hbase => by
      refine .still_bind fun holds => .ite (.pure hbase) ((hbody base hbase).bind fun items middle hitems => ?_)
      refine (leads_repeatUntil hend happend hbody count middle (hend hitems)).bind fun rest later hrest => ?_
      exact .pure (happend hitems hrest)

theorem leads_argumentList {item : Parse (List Value)} [Candid item]
    (hend : ∀ {base items later}, told base items later → told later [] later)
    (happend : ∀ {base middle later items rest}, told base items middle → told middle rest later →
      told base (items ++ rest) later)
    (hitem : ∀ base, told base [] base → Leads base item (told base)) (count : Nat) (base : Sketch) (hbase : told base [] base) :
    Leads base (argumentList item count) (told base) := by
  refine @leads_repeatUntil told _ _ inferInstance hend happend (fun base hbase => ?_) count base hbase
  refine (hitem base hbase).bind fun items later hitems => .still_bind fun _ => .ite ?_ (.pure hitems)
  exact .still_bind fun _ => .pure hitems

end Lists

/-- Values that are nodes of one kind. -/
def Nodes (kind : Kind) (values : List Value) (sketch : Sketch) : Prop :=
  ∃ ids : List Nat, values = ids.map .node ∧ ∀ id ∈ ids, id < sketch.size ∧ (sketch.graph.node id).kind = kind

theorem Nodes.append (h : Nodes kind values middle) (hgrown : middle.Grown later) (h' : Nodes kind rest later) :
    Nodes kind (values ++ rest) later := by
  obtain ⟨ids, rfl, hids⟩ := h
  obtain ⟨others, rfl, hothers⟩ := h'
  refine ⟨ids ++ others, by simp, List.forall_mem_append.2 ⟨fun id hid => ?_, hothers⟩⟩
  obtain ⟨hlt, hkind⟩ := hids id hid
  exact ⟨hlt.trans_le hgrown.size_le, by rw [hgrown.old id hlt, hkind]⟩

/-- Arguments of a call, each of which was read after the one before.  Each has been in focus in its turn. -/
structure ArgumentsDrawn (base : Sketch) (values : List Value) (later : Sketch) : Prop where
  row : (base.refocus .null).Row (values.map (true, ·)) (later.refocus .null)
  nodes : Nodes .argument values later

theorem ArgumentsDrawn.nil (base : Sketch) : ArgumentsDrawn base [] base :=
  ⟨.nil (.refl nofun), [], rfl, nofun⟩

theorem ArgumentsDrawn.append (h : ArgumentsDrawn base values middle) (h' : ArgumentsDrawn middle rest later) :
    ArgumentsDrawn base (values ++ rest) later := by
  refine ⟨?_, @Nodes.append _ _ _ (middle.refocus .null) (later.refocus .null) h.nodes h'.row.grown h'.nodes⟩
  rw [List.map_append]
  exact h.row.append h'.row

/-- The node that an argument starts as. -/
def emptyArgument : Node :=
  ⟨.argument, [(.name, .null), (.value, .null), (.parent, .null), (.cachedType, .null)]⟩

/-- The argument is complete; its value may have got the argument as its parent. -/
theorem ArgumentsDrawn.of_value {changed : Sketch}
    (hvalue : Drawn ((base.add emptyArgument).refocus (.node base.size)) [value] later) (hsize : changed.size = later.size)
    (hroot : changed.graph.node base.size = emptyArgument.set .value value)
    (hnode : ∀ id : Nat, id ≠ base.size → changed.graph.node id = later.graph.node id ∨
      value = .node id ∧ changed.graph.node id = (later.graph.node id).set .parent (.node base.size)) :
    ArgumentsDrawn base [.node base.size] changed := by
  have hencloses (id : Nat) : changed.graph.Encloses base.size id := by
    unfold Graph.Encloses
    rw [hroot]
    rfl
  have hholds : (base.refocus .null).Holds [.node base.size, value] (changed.refocus .null) := by
    refine @Sketch.Holds.finish (base.refocus .null) later _ emptyArgument _ hvalue.toHolds nofun hsize .null (fun id hid => ?_)
      (fun id hid => (hnode id hid.ne').imp_right fun hset => ⟨hset.2, hencloses id⟩) _ hroot rfl (.refl _) rfl ?_
    · refine (hnode id hid.ne).resolve_right fun hset => ?_
      have hlow := (Value.spans_node.1 (hset.1 ▸ (hvalue.has value (by simp)).spans)).1
      rw [Sketch.size_refocus, Sketch.size_add] at hlow
      exact absurd hid (by simp; omega)
    · unfold Graph.Formed
      rw [Sketch.graph_refocus, Sketch.size_refocus, hroot]
      rfl
  refine ⟨(hholds.subset (by simp)).row true fun _ => .inr rfl, [base.size], rfl, List.forall_mem_singleton.2 ⟨?_, ?_⟩⟩
  · exact (hholds.has _ (List.mem_cons_self ..)).1.2
  · rw [hroot]
    rfl

theorem leads_callArgument {expression : Parse Value} [Candid expression] (hexpression : Draws expression) (base : Sketch) :
    Leads base (callArgument expression) (ArgumentsDrawn base) := by
  refine .add_bind (.focus_bind ((hexpression _ (Sketch.focused_root base emptyArgument)).bind fun value later hvalue => ?_))
  obtain ⟨hroot, hlt⟩ := hvalue.root
  rw [if_neg (by simp [(hvalue.has value (by simp)).isNull])]
  refine .set_bind ?_
  rintro _ ⟨⟩
  have hplain : ArgumentsDrawn base [.node base.size] (later.set base.size .value value) := by
    refine .of_value hvalue (by simp) ?_ fun id hid => .inl (Sketch.node_set_of_ne _ _ _ hid)
    rw [Sketch.node_set_self _ _ _ hlt, hroot]
  refine .still_bind fun _ => .ite (.still_bind fun _ => .ite (.set_bind fun id hid => .pure ?_) (.pure hplain)) (.pure hplain)
  -- The value gets the argument as its parent.
  have hbounds := Value.spans_node.1 (hid ▸ (hvalue.has value (by simp)).spans)
  rw [Sketch.size_refocus, Sketch.size_add] at hbounds
  refine .of_value hvalue (by simp) ?_ fun other hother => ?_
  · rw [Sketch.node_set_of_ne _ _ _ (by omega), Sketch.node_set_self _ _ _ hlt, hroot]
  · by_cases heq : other = id
    · rw [heq, Sketch.node_set_self _ _ _ (by simpa using hbounds.2), Sketch.node_set_of_ne _ _ _ (heq ▸ hother)]
      exact .inr ⟨hid, rfl⟩
    · rw [Sketch.node_set_of_ne _ _ _ heq, Sketch.node_set_of_ne _ _ _ hother]
      exact .inl rfl

/-! ### Calls -/

theorem leads_methodChain {expression : Parse Value} [Candid expression] (hexpression : Draws expression) :
    ∀ count base sketch receiver, Drawn base [receiver] sketch →
      Leads sketch (methodChain expression count receiver) fun value => Drawn base [value]
  | 0, _, _, _, _ => .fail
  | count + 1, base, sketch, receiver, hreceiver => by
      refine .still_bind fun holds => .ite ?_ (.focus_bind (.pure ⟨⟨hreceiver.grown.refocus .null, hreceiver.has⟩, .inr rfl⟩))
      refine .still_bind fun _ => .still_bind fun name => .still_bind fun _ => .still_bind fun _ => ?_
      have harguments : Leads sketch (argumentList (return [← expression]) count) (Drawn sketch) := by
        refine leads_argumentList (fun h => .nil h.grown.later_focused) .append ?_ count sketch (.nil hreceiver.grown.later_focused)
        exact fun base hbase => (hexpression base hbase.grown.focused).bind fun value later hvalue => .pure hvalue
      refine harguments.bind fun arguments later harguments => .still_bind fun _ => .still_bind fun line => .add_bind ?_
      exact leads_methodChain hexpression count base _ _
        ((hreceiver.append harguments).addBare rfl rfl (.refl _) .null).one

/-- The node of a call that was just read. -/
def newCallNode (name : Value) (ids : List Nat) (line : Value) : Node :=
  ⟨.call, [(.name, name), (.args, .list (ids.map .node)), (.arity, .int (ids.map Value.node).length), (.parent, .null),
    (.line, line), (.type, .null), (.transformed, .null)]⟩

theorem formed_newCallNode {ids : List Nat} (h : base.Row ((ids.map Value.node).map (true, ·)) sketch)
    (hkinds : ∀ id ∈ ids, id < sketch.size ∧ (sketch.graph.node id).kind = .argument) (name line : Value) :
    (sketch.add (newCallNode name ids line)).graph.Formed base.size (sketch.size + 1) sketch.size := by
  have hnode := Sketch.node_add_self sketch (newCallNode name ids line)
  have hkeeps := Sketch.keeps_add sketch (newCallNode name ids line) base.size
  unfold Graph.Formed
  rw [hnode]
  refine ⟨ids, by rw [hnode]; rfl, ?_, by rw [hnode]; rfl, fun id hid => ?_, ⟨base.size, le_refl _, ?_, fun id hid => ?_⟩,
    ?_, fun parent hget => ?_⟩
  · rw [hnode]
    exact congrArg (some <| Value.int ·) (by simp)
  · rw [Sketch.node_add_of_ne _ _ (hkinds id hid).1.ne]
    exact (hkinds id hid).2
  · exact h.grown.closed.transfer hkeeps.alike
  · exact (h.has (.node id) (by simpa using hid)).1
  · have hparted := h.parted
    rw [List.pairwise_map, List.pairwise_map] at hparted
    exact hparted.imp fun hpart => (hpart rfl).transfer hkeeps (le_refl _) (by omega)
  · rw [hnode] at hget
    cases hget

theorem draws_functionCall {expression : Parse Value} [Candid expression] (hexpression : Draws expression) (count : Nat)
    (name : Value) : Draws (functionCall expression count name) := by
  intro base hfocused
  refine .still_bind fun _ => Leads.bind (leads_argumentList (fun _ => .nil _) .append
    (fun base _ => leads_callArgument hexpression base) count base (.nil base)) ?_
  rintro _ later ⟨hrow, ids, rfl, hkinds⟩
  refine .still_bind fun _ => .still_bind fun _ => .focus_bind (.still_bind fun line => ?_)
  have hcall : Drawn base [.node later.size] ((later.refocus .null).add (newCallNode name ids line)) := by
    have hholds := hrow.holds.add rfl (.refl _) .null (formed_newCallNode hrow hkinds name line)
    exact Drawn.one ⟨⟨hholds.grown.of_refocus hfocused, hholds.has⟩, .inr rfl⟩
  show Leads _ (liftM (Draft.addNode .call (newCallNode name ids line).fields) >>= _) _
  exact .add_bind (.still_bind fun _ => .ite (leads_methodChain hexpression count base _ _ hcall) (.pure hcall))

/-! ### Names and primaries -/

theorem draws_stepNode (name : Value) (operator : String) : Draws (stepNode name operator) := by
  refine fun base hfocused => .still_bind fun line => .add_bind (.add_bind (.add_bind (.still_bind fun line => .add ?_)))
  exact Drawn.one (.addBare (.addBare (.addBare (.addBare (.nil hfocused) rfl rfl (.refl _) .null) rfl rfl
    (List.nil_subset _) .null) rfl rfl (List.Perm.swap _ _ _).subset .null) rfl rfl
    (List.cons_subset_cons _ (List.nil_subset _)) .null)

theorem draws_literalNode (hkind : kind ∈ [Kind.integer, .double, .boolean, .null]) (value : Scalar) :
    Draws (literalNode kind (.scalar value)) := by
  simp only [List.mem_cons, List.not_mem_nil, or_false] at hkind
  intro base hfocused
  refine .still_bind fun line => .add_bind (.still_bind fun _ => .pure ?_)
  rcases hkind with rfl | rfl | rfl | rfl <;> exact ((Drawn.nil hfocused).addBare rfl rfl (.refl _) .null)

section Levels

variable {expression : Parse Value} [Candid expression]

theorem draws_named (hexpression : Draws expression) : Draws (named expression count) := by
  intro base hfocused
  have hreference (name line : Value) := @Drawn.addBare _ ⟨.reference, [(.name, name), (.line, line), (.value, .null), (.type, .null), (.scope, .null)]⟩
      _ _ (Drawn.nil hfocused) rfl rfl (.refl _) .null
  refine .still_bind fun name => .still_bind fun _ => .still_bind fun _ => .ite (draws_functionCall hexpression count _ base hfocused) ?_
  refine .still_bind fun _ => .ite (.still_bind fun line => .add_bind ?_) (.still_bind fun _ => .ite ?_ (.still_bind fun _ => .ite ?_ ?_))
  · exact leads_methodChain hexpression count base _ _ (hreference _ line)
  · exact .still_bind fun _ => draws_stepNode _ _ base hfocused
  · exact .still_bind fun _ => draws_stepNode _ _ base hfocused
  · exact .still_bind fun line => .add (hreference _ line)

theorem draws_primaryWith (hexpression : Draws expression) : Draws (primaryWith expression count) := by
  refine fun base hfocused => .get_bind fun cursor _ => ?_
  split
  · exact .still_bind fun _ => draws_literalNode (by simp) _ base hfocused
  · exact .still_bind fun _ => draws_literalNode (by simp) _ base hfocused
  · exact .still_bind fun _ => draws_literalNode (by simp) _ base hfocused
  · refine .still_bind fun _ => .still_bind fun _ => .add_bind (.still_bind fun _ => .pure ?_)
    exact (Drawn.nil hfocused).addBare rfl rfl (.refl _) .null
  · exact draws_literalNode (by simp) _ base hfocused
  · exact draws_named hexpression base hfocused
  · refine .still_bind fun _ => (hexpression base hfocused).bind fun value later hvalue => ?_
    exact .get_bind fun _ _ => .still_bind fun _ => .pure hvalue
  · exact .still_bind fun _ => .loud

theorem draws_unaryWith (hexpression : Draws expression) : Draws (unaryWith expression) := by
  refine fun base hfocused => .still_bind fun _ => .ite (.still_bind fun operator => .still_bind fun _ => ?_) (hexpression base hfocused)
  refine (hexpression base hfocused).bind fun operand later hoperand => .still_bind fun line => .add ?_
  exact (hoperand.addBare rfl rfl (.refl _) .null).one

omit [Candid expression] in
theorem draws_exponent (hexpression : Draws expression) : Draws (exponent expression) := by
  refine fun base hfocused => .still_bind fun _ => .ite (.add ?_) (hexpression base hfocused)
  exact (Drawn.nil hfocused).addBare rfl rfl (.refl _) .null

end Levels

theorem drawsLevels (count : Nat) : Levels (fun x _ => Draws x) count count := by
  induction count with
  | zero => constructor <;> exact fun _ _ => .fail
  | succ count ih =>
      obtain ⟨_, _, _, _, _, _, _, _⟩ := levelsFlow count
      refine ⟨draws_leftChain ih.equality ih.equality joins_joinLogical count,
        draws_leftChain ih.comparison ih.comparison joins_joinComparison count,
        draws_leftChain ih.additive ih.additive joins_joinComparison count, fun base hfocused => ?_,
        draws_leftChain ih.factor ih.factor joins_joinProduct count,
        draws_leftChain ih.unary (draws_exponent ih.unary) joins_joinProduct count,
        draws_unaryWith ih.primary, draws_primaryWith ih.expression⟩
      -- Sums associate to the right.
      refine (ih.term base hfocused).bind fun left middle hleft => ?_
      refine .still_bind fun _ => .ite (.still_bind fun operator => .still_bind fun _ => ?_) (.pure hleft)
      refine (ih.additive middle hleft.grown.later_focused).bind fun right later hright => ?_
      exact joins_joinSum _ _ _ _ _ (hleft.append hright)

theorem draws_expression (count : Nat) : Draws (expression count) :=
  (drawsLevels count).expression

end Scriptlet.Parse
