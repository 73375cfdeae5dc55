import Scriptlet.Proofs.Grammar.ExpressionLayout

/-!
Statements, blocks and whole programs are laid out well.
-/

set_option synthInstance.maxSize 10000000

namespace Scriptlet

namespace Parse

open Sketch (Holds Row Early)

variable {base sketch middle later : Sketch} {count : Nat}
variable {value body condition : Value} {values : List Value}

/-- The statements that a value stands for are there. -/
def Fills (x : Parse Value) : Prop :=
  ∀ base, base.Focused → Leads base x fun value => base.Holds (statementList value)

/-- The result of a rule is there. -/
def Yields (x : Parse Value) : Prop :=
  ∀ base, base.Focused → Leads base x fun value => base.Holds [value]

theorem statementList_of_has {graph : Graph} {low high : Nat} (h : graph.Has low high value) : statementList value = [value] := by
  unfold statementList
  split
  · exact absurd rfl h.ne_null
  · cases h
  · rfl

theorem holds_statementList (h : base.Holds [value] later) : base.Holds (statementList value) later := by
  rwa [statementList_of_has (h.has value (List.mem_singleton_self _))]

theorem Yields.fills {x : Parse Value} (hx : Yields x) : Fills x :=
  fun base hfocused => (hx base hfocused).mono holds_statementList

theorem Draws.fills {x : Parse Value} (hx : Draws x) : Fills x :=
  fun base hfocused => (hx base hfocused).mono fun h => holds_statementList h.toHolds

/-! ### Declarations and assignments -/

theorem fills_increment (name : Value) : Fills (increment name) :=
  fun base hfocused => .still_bind fun _ => (draws_stepNode _ _).fills base hfocused

theorem fills_decrement (name : Value) : Fills (decrement name) :=
  fun base hfocused => .still_bind fun _ => (draws_stepNode _ _).fills base hfocused

/-- Several nodes are made above one value. -/
theorem leads_mapM {make : Value → Parse Value} [∀ item, Candid (make item)]
    (hmake : ∀ item sketch values, value ∈ values → base.Holds values sketch →
      Leads sketch (make item) fun found => base.Holds (found :: values)) :
    ∀ items sketch values, value ∈ values → base.Holds values sketch →
      Leads sketch (List.mapM make items) fun found => base.Holds (found ++ values)
  | [], sketch, values, _, h => by
      rw [List.mapM_nil]
      exact .pure h
  | item :: items, sketch, values, hvalue, h => by
      rw [List.mapM_cons]
      refine (hmake item sketch values hvalue h).bind fun found middle hfound => ?_
      refine (leads_mapM hmake items middle _ (List.mem_cons_of_mem _ hvalue) hfound).bind fun rest later hrest => .pure ?_
      exact hrest.subset List.perm_middle.symm.subset

def declarationNode (name value line type : Value) : Node :=
  ⟨.declaration, [(.name, name), (.value, value), (.declaredType, type), (.line, line)]⟩

theorem holds_declarationNode (h : base.Holds values sketch) (hvalue : value ∈ values) (name line type : Value) :
    base.Holds (.node sketch.size :: values) (sketch.add (declarationNode name value line type)) :=
  h.addBare rfl rfl (List.cons_subset.2 ⟨hvalue, List.nil_subset _⟩) .null

theorem leads_declareAll (hvalue : base.Holds [value] sketch) (type : Value) (names : List Value) :
    Leads sketch (declareAll type value names) fun found => base.Holds (statementList found) := by
  refine (leads_mapM (fun name sketch values hmem h => .still_bind fun line => .add_bind (.set_bind fun id hid => .set_bind ?_))
    names sketch [value] (List.mem_singleton_self _) hvalue).bind fun nodes later hnodes =>
      .pure (hnodes.subset (List.subset_append_left _ _))
  rintro _ ⟨⟩
  subst hid
  have hbounds := Value.spans_node.1 (h.has (.node id) hmem).spans
  -- The value of the declaration could as well have been there from the start.
  have hdone : ((sketch.add (declarationNode name .null line type)).set id .parent (.node sketch.size)).set sketch.size
      .value (.node id) = (sketch.set id .parent (.node sketch.size)).add (declarationNode name (.node id) line type) := by
    rw [Sketch.set_add_of_lt _ _ _ _ hbounds.2]
    conv_lhs => arg 2; rw [← Sketch.size_set sketch id .parent (.node sketch.size)]
    exact Sketch.set_add_self _ _ _ _
  have hfull := (holds_declarationNode h hmem name line type).adopt hbounds fun graph hnode => by
    unfold Graph.Encloses
    rw [hnode]
    rfl
  rw [← hdone] at hfull
  exact .pure hfull

/-- A root that was made first gets its value. -/
theorem holds_root {root done : Node} {changed : Sketch} (h : ((base.add root).refocus (.node base.size)).Holds values later)
    (hfocused : base.Focused) (hsize : changed.size = later.size) (hfocus : base.Offers later changed.focus)
    (hold : ∀ id : Nat, id ≠ base.size → changed.graph.node id = later.graph.node id)
    (hdone : changed.graph.node base.size = done) (hbare : done.kind.isBare) (hmarks : done.isUnmarked)
    (hchildren : done.children ⊆ values) (hparent : done.get .parent = .null) : base.Holds [.node base.size] changed :=
  (h.finish hfocused hsize hfocus (fun id hid => hold id hid.ne) (fun id hid => .inl (hold id hid.ne')) hdone hmarks hchildren
    hparent (.of_isBare (hdone ▸ hbare))).subset (by simp)

theorem fills_declaration (name type : Value) : Fills (declaration count name type) := by
  refine fun base hfocused => .still_bind fun _ => .still_bind fun _ => .ite ?_ ?_
  · refine .still_bind fun names => ?_
    split
    · exact .pure (.nil (.refl hfocused))
    · exact (draws_expression count base hfocused).bind fun value later hvalue => leads_declareAll hvalue.toHolds _ _
  · refine .add_bind (.focus_bind ((draws_expression count _ (Sketch.focused_root _ _)).bind fun value later hvalue => .set_bind ?_))
    rintro _ ⟨⟩
    obtain ⟨hroot, hlt⟩ := hvalue.root
    refine .set_bind ?_
    rintro _ ⟨⟩
    refine .still_bind fun line => .set_bind ?_
    rintro _ ⟨⟩
    refine .focus_bind (.pure (holds_statementList ?_))
    refine holds_root hvalue.toHolds hfocused (by simp) .null (fun id hid => ?_)
      (show _ = declarationNode name value line type from ?_) rfl rfl (.refl _) rfl
    · simp [Sketch.node_set_of_ne, hid]
    · simp [Sketch.node_set_self, hlt, hroot]
      rfl

def updateNode (name value line : Value) : Node :=
  ⟨.update, [(.name, name), (.value, value), (.line, line)]⟩

theorem leads_assignAll (hvalue : base.Holds [value] sketch) (names : List Value) :
    Leads sketch (assignAll value names) fun found => base.Holds (statementList found) := by
  refine (leads_mapM (fun name sketch values hmem h => .still_bind fun line => .add_bind (.focus_bind ?_)) names sketch
    [value] (List.mem_singleton_self _) hvalue).bind fun nodes later hnodes => .pure (hnodes.subset (List.subset_append_left _ _))
  have hupdate := @Holds.addBare _ _ (updateNode name value line) _ h rfl rfl (List.cons_subset.2 ⟨hmem, List.nil_subset _⟩) .null
  exact .pure ⟨hupdate.grown.refocus (.inl (hupdate.has _ (List.mem_cons_self ..)).spans), hupdate.has⟩

/-- Without a message the update is still in focus when its value has been read. -/
theorem leads_completeFocus {name line : Value} (hfocused : base.Focused)
    (h : Drawn ((base.add (updateNode name .null line)).refocus (.node base.size)) (value :: values) sketch) :
    Leads sketch (completeFocus value) fun found => base.Holds (statementList found) := by
  refine .get_bind fun cursor hcursor => .set_bind fun id hid => .pure ?_
  subst hcursor
  obtain rfl : base.size = id := by simpa [Cursor.sketch, hid, eq_comm] using h.focus
  obtain ⟨hroot, hlt⟩ := h.root
  rw [hid]
  refine holds_statementList (holds_root h.toHolds hfocused (by simp) (.inl ?_) (fun other hother => ?_)
    (show _ = updateNode name value line from ?_) rfl rfl (List.cons_subset_cons _ (List.nil_subset _)) rfl)
  · rw [Sketch.focus_set, show cursor.sketch.focus = _ from hid]
    exact Value.spans_node.2 ⟨le_refl _, hlt⟩
  · exact Sketch.node_set_of_ne _ _ _ hother
  · rw [Sketch.node_set_self _ _ _ hlt, hroot]
    rfl

theorem fills_assignment (name : Value) : Fills (assignment count name) := by
  refine fun base hfocused => .still_bind fun line => .add_bind (.focus_bind (.still_bind fun _ => ?_))
  have hexpression := draws_expression count _ (Sketch.focused_root base (updateNode name .null line))
  refine .ite (.still_bind fun _ => .still_bind fun _ => hexpression.bind fun value later hvalue => .add_bind (.add_bind ?_)) ?_
  · exact leads_completeFocus hfocused (.addBare (.addBare hvalue rfl rfl (List.nil_subset _) .null) rfl rfl (.refl _) .null)
  refine .still_bind fun found => .still_bind fun _ => .still_bind fun _ => .still_bind fun _ => .ite (.still_bind fun names => ?_) ?_
  · refine hexpression.bind fun value later hvalue => ?_
    -- The update that was made first stays without a value, but it is no part of the result.
    have hroot : base.Grown ((base.add (updateNode name .null line)).refocus (.node base.size)) := by
      refine ((Sketch.Grown.refl hfocused).add rfl (.inr rfl) .null (.of_isBare ?_)).refocus (.inl (Value.spans_node.2 ?_))
      · rw [Sketch.node_add_self]
        rfl
      · simp
    have hnodes := leads_assignAll ((Holds.nil hroot).append hvalue.toHolds) names
    exact .ite (.still_bind fun _ => .still_bind fun _ => .still_bind fun _ => hnodes) hnodes
  · exact hexpression.bind fun value later hvalue => leads_completeFocus hfocused hvalue

/-! ### Conditions and what follows them -/

/-- A rule for blocks: what is put at the end of the block may have been read before. -/
def FillsBlock (block : Value → Parse Value) : Prop :=
  ∀ {base sketch : Sketch} {appended}, base.Holds (if appended.isNull then [] else [appended]) sketch →
    Leads sketch (block appended) fun value => base.Holds [value]

/-- The conditions of a conditional with their blocks, in the order in which they were read. -/
def inOrder (branches : List (Value × Value)) : List (Bool × Value) :=
  branches.flatMap fun branch => [(true, branch.1), (false, branch.2)]

theorem row_branch (hcondition : Drawn base [condition] middle) (hbody : middle.Holds [body] later) :
    base.Row (inOrder [(condition, body)]) later :=
  (hcondition.toHolds.row true fun _ => hcondition.focus).append (hbody.row false nofun)

theorem leads_elifBranches {block : Parse Value} [Candid block] (hblock : Yields block) :
    ∀ steps base, base.Focused → Leads base (elifBranches (expression count) block steps) fun values later =>
      ∃ branches, values = branches.map (fun branch => .tuple [branch.1, branch.2]) ∧ base.Row (inOrder branches) later
  | 0, _, _ => .fail
  | steps + 1, base, hfocused => by
      refine .still_bind fun _ => .ite (.still_bind fun _ => .still_bind fun _ => ?_) (.pure ⟨[], rfl, .nil (.refl hfocused)⟩)
      refine (draws_expression count base hfocused).bind fun condition middle hcondition => .still_bind fun _ => ?_
      refine (hblock middle hcondition.grown.later_focused).bind fun body after hbody => .still_bind fun _ => ?_
      refine (leads_elifBranches hblock steps after hbody.grown.later_focused).bind ?_
      rintro _ later ⟨branches, rfl, hbranches⟩
      exact .pure ⟨(condition, body) :: branches, rfl, (row_branch hcondition hbody).append hbranches⟩

theorem leads_newConditional {branches : List (Value × Value)} {otherwise : Value}
    (hrow : base.Row (inOrder ((condition, body) :: branches)) middle) (hholds : middle.Holds values later)
    (hspans : otherwise.Spans middle.size later.size) (hotherwise : (if otherwise.isNull then [] else [otherwise]) ⊆ values)
    (start : Value) :
    Leads later (liftM (Draft.newConditional condition body start
      (.list (branches.map fun branch => .tuple [branch.1, branch.2])) otherwise)) fun value => base.Holds [value] := by
  refine .add ((Holds.add (hrow.toHolds.append hholds) rfl ?_ .null ?_).subset (by simp))
  · show [condition, body] ++ (branches.map _).flatMap Value.entries ++ (if otherwise.isNull then [] else [otherwise]) ⊆ _
    refine List.append_subset.2 ⟨?_, List.Subset.trans hotherwise (List.subset_append_right _ _)⟩
    have hparts : [condition, body] ++ (branches.map fun branch => .tuple [branch.1, branch.2]).flatMap Value.entries =
        (inOrder ((condition, body) :: branches)).map Prod.snd := by
      simp [inOrder, List.flatMap_map, List.map_flatMap, Value.entries]
    rw [hparts]
    exact List.subset_append_left _ _
  · have hlater := hrow.grow hholds.grown
    have hkeeps (node : Node) := Sketch.keeps_add later node base.size
    obtain ⟨hown, hpairs⟩ := List.pairwise_flatMap.1 hlater.parted
    unfold Graph.Formed
    rw [Sketch.node_add_self]
    refine ⟨condition, body, branches, otherwise, ?_, ?_, ?_, ?_, fun branch hbranch => ⟨?_, ?_⟩, hpairs.imp fun h => ⟨?_, ?_⟩⟩
    · rw [Sketch.node_add_self]
      rfl
    · rw [Sketch.node_add_self]
      rfl
    · rw [Sketch.node_add_self]
      rfl
    · rw [Sketch.node_add_self]
      rfl
    · have hparted := List.rel_of_pairwise_cons (hown branch hbranch) (List.mem_singleton_self _) rfl
      exact hparted.transfer (hkeeps _) (le_refl _) (Nat.le_succ _)
    · have hparted := ((hrow.early (true, branch.1) (List.mem_flatMap.2 ⟨branch, hbranch, by simp⟩) rfl).grow hholds.grown).2 hspans
      exact hparted.transfer (hkeeps _) (le_refl _) (Nat.le_succ _)
    · exact (h (true, _) (by simp) (true, _) (by simp) rfl).transfer (hkeeps _) (le_refl _) (Nat.le_succ _)
    · exact (h (true, _) (by simp) (false, _) (by simp) rfl).transfer (hkeeps _) (le_refl _) (Nat.le_succ _)

theorem yields_conditional {block : Parse Value} [Candid block] (hblock : Yields block) :
    Yields (conditional count block) := by
  intro base hfocused
  refine .still_bind fun _ => .still_bind fun start => .still_bind fun _ => ?_
  refine (draws_expression count base hfocused).bind fun condition middle hcondition => .still_bind fun _ => ?_
  refine (hblock middle hcondition.grown.later_focused).bind fun body after hbody => .still_bind fun _ => ?_
  refine (leads_elifBranches hblock count after hbody.grown.later_focused).bind ?_
  rintro _ later ⟨branches, rfl, hbranches⟩
  have hrow := (row_branch hcondition hbody).append hbranches
  refine .still_bind fun _ => .still_bind fun _ => .ite (.still_bind fun _ => ?_) ?_
  · refine (hblock later hbranches.grown.later_focused).bind fun otherwise last hotherwise => ?_
    have hhas := hotherwise.has otherwise (List.mem_singleton_self _)
    refine leads_newConditional hrow hotherwise hhas.spans ?_ start
    rw [hhas.isNull]
    exact List.Subset.refl _
  · exact leads_newConditional hrow (.nil (.refl hbranches.grown.later_focused)) Value.spans_scalar (.refl _) start

/-! ### Functions -/

/-- Parameters that are read without a message are read to their end. -/
theorem leads_parameters : ∀ count base, base.Focused → Leads base (parameters count) fun result later =>
    base.Holds result.1 later ∧ Nodes .parameter result.1 later ∧ result.2 = true
  | 0, _, _ => .fail
  | count + 1, base, hfocused => by
      refine .still_bind fun _ => .ite (.pure ⟨.nil (.refl hfocused), ⟨[], rfl, nofun⟩, rfl⟩) ?_
      refine .still_bind fun name => .still_bind fun _ => .still_bind fun _ => .ite ?_ .loud
      refine .still_bind fun _ => .still_bind fun _ => .still_bind fun type => .still_bind fun _ => .add_bind ?_
      have hparameter : base.Holds [.node base.size] (base.add ⟨.parameter, [(.name, .scalar name), (.type, .text type)]⟩) := by
        refine (Holds.nil (.refl hfocused)).add rfl (.refl _) .null ?_
        unfold Graph.Formed
        rw [Sketch.node_add_self]
        exact ⟨type, rfl⟩
      have hnodes : Nodes .parameter [.node base.size] (base.add ⟨.parameter, [(.name, .scalar name), (.type, .text type)]⟩) :=
        ⟨[base.size], rfl, List.forall_mem_singleton.2 ⟨by simp, by simp⟩⟩
      have hrest : Leads _ (parameters count >>= fun result => return (Value.node base.size :: result.1, result.2))
          fun result later => base.Holds result.1 later ∧ Nodes .parameter result.1 later ∧ result.2 = true :=
        (leads_parameters count _ hparameter.grown.later_focused).bind fun result later ⟨hholds, hothers, hcomplete⟩ =>
          .pure ⟨hparameter.append hholds, hnodes.append hholds.grown hothers, hcomplete⟩
      exact .still_bind fun _ => .ite (.still_bind fun _ => hrest) hrest

theorem leads_newFunction {ids : List Nat} (hparameters : base.Holds (ids.map .node) middle)
    (hkinds : ∀ id ∈ ids, id < middle.size ∧ (middle.graph.node id).kind = .parameter) (hbody : middle.Holds [body] later)
    (name line : Value) (type : String) :
    Leads later (liftM (Draft.newFunction name (.text type) (.list (ids.map .node)) body line)) fun value => base.Holds [value] := by
  show Leads later (liftM (Draft.addNode .function
    [(.name, name), (.returnType, .text type), (.parameters, .list (ids.map .node)), (.block, body),
      (.arity, .int (ids.map Value.node).length), (.line, line)])) _
  have hall := hparameters.append hbody
  refine .add ((hall.add rfl (.refl _) .null ?_).subset (by simp))
  unfold Graph.Formed
  rw [Sketch.node_add_self]
  refine ⟨ids, type, ?_, ?_, ?_, fun id hid => ?_⟩
  · rw [Sketch.node_add_self]
    rfl
  · rw [Sketch.node_add_self]
    exact congrArg (some <| Value.int ·) (by simp)
  · rw [Sketch.node_add_self]
    rfl
  · obtain ⟨hlow, hhigh⟩ := Value.spans_node.1 (hall.has (.node id) (by simp [hid])).spans
    refine ⟨hlow, by omega, ?_⟩
    rw [Sketch.node_add_of_ne _ _ hhigh.ne, hbody.grown.old id (hkinds id hid).1]
    exact (hkinds id hid).2

instance : Flows (modify fun cursor : Cursor => { cursor with inFunction := false }) := by
  refine .of_still fun h => ?_
  obtain rfl := modify_eq_ok.1 h
  exact ⟨rfl, Nat.le_refl _, id, fun h => ⟨h.lines, h.last, h.ending⟩, by simp, id⟩

instance : Flows (modify fun cursor : Cursor => { cursor with inLoop := false }) := by
  refine .of_still fun h => ?_
  obtain rfl := modify_eq_ok.1 h
  exact ⟨rfl, Nat.le_refl _, id, fun h => ⟨h.lines, h.last, h.ending⟩, id, by simp⟩

theorem yields_functionDeclaration {block : Parse Value} [Candid block] (hblock : Yields block) :
    Yields (functionDeclaration count block) := by
  intro base hfocused
  refine .still_bind fun _ => .still_bind fun _ => .still_bind fun _ => .still_bind fun type => .still_bind fun name => ?_
  refine .still_bind fun _ => .still_bind fun _ => (leads_parameters count base hfocused).bind ?_
  rintro ⟨_, _⟩ middle ⟨hparameters, ⟨ids, rfl, hkinds⟩, rfl⟩
  refine .still_bind fun _ => .still_bind fun _ => (hblock middle hparameters.grown.later_focused).bind fun body later hbody => ?_
  exact .still_bind fun _ => .still_bind fun line => leads_newFunction hparameters hkinds hbody _ line type

theorem yields_returnStatement : Yields (returnStatement count) := by
  refine fun base hfocused => .get_bind fun cursor _ => .ite (.still_bind fun _ => .still_bind fun _ => .ite ?_ ?_) .loud
  · refine .add_bind (.still_bind fun line => .add (Holds.subset (.addBare (.addBare (.nil (.refl hfocused)) rfl rfl (.refl _) .null)
      rfl rfl (.refl _) .null) (by simp)))
  · refine (draws_expression count base hfocused).bind fun value later hvalue => .still_bind fun line => .add ?_
    exact (hvalue.toHolds.addBare rfl rfl (.refl _) .null).subset (by simp)

theorem yields_breakStatement : Yields breakStatement :=
  fun _ hfocused => .get_bind fun _ _ => .ite (.still_bind fun _ => .still_bind fun _ =>
    .add (.addBare (.nil (.refl hfocused)) rfl rfl (.refl _) .null)) .loud

/-! ### Loops -/

theorem leads_loopBody {block : Parse Value} [Candid block] {wish : Value → Sketch → Prop} (hblock : Leads sketch block wish) :
    Leads sketch (loopBody block) wish :=
  .still_bind fun _ => hblock.bind fun _ _ hbody => .still_bind fun _ => .pure hbody

theorem holds_loop (h : base.Holds values sketch) (hvalues : [condition, body] ⊆ values)
    (hparted : sketch.graph.Parted base.size sketch.size condition body) (line : Value) :
    base.Holds (.node sketch.size :: values) (sketch.add ⟨.loop, [(.comparison, condition), (.block, body), (.line, line)]⟩) := by
  refine h.add rfl hvalues .null ?_
  unfold Graph.Formed
  rw [Sketch.node_add_self]
  exact ⟨condition, body, rfl, rfl, hparted.transfer (Sketch.keeps_add _ _ _) (le_refl _) (Nat.le_succ _)⟩

/-- A condition was read before the body of its loop. -/
theorem parted_condition (hcondition : Drawn base [condition] middle) (hbody : middle.Holds [body] later) :
    later.graph.Parted base.size later.size condition body :=
  List.rel_of_pairwise_cons (row_branch hcondition hbody).parted (List.mem_singleton_self _) rfl

theorem yields_whileLoop {block : Parse Value} [Candid block] (hblock : Yields block) : Yields (whileLoop count block) := by
  refine fun base hfocused => .still_bind fun _ => .still_bind fun _ => ?_
  refine (draws_expression count base hfocused).bind fun condition middle hcondition => .still_bind fun _ => ?_
  refine (leads_loopBody (hblock middle hcondition.grown.later_focused)).bind fun body later hbody => .still_bind fun line => .add ?_
  exact (holds_loop (hcondition.toHolds.append hbody) (.refl _) (parted_condition hcondition hbody) line).subset (by simp)

theorem fills_counterUpdate (counter : Scalar) : Fills (counterUpdate count counter) :=
  fun base hfocused => .still_bind fun _ => .ite (.still_bind fun _ => .still_bind fun _ =>
    .ite (fills_increment _ base hfocused) (.still_bind fun _ => .ite (fills_decrement _ base hfocused)
      (fills_assignment _ base hfocused))) (.still_bind fun _ => .loud)

theorem leads_isKind {kind : Kind} : Leads sketch (liftM (Draft.isKind kind value)) fun holds later =>
    later = sketch ∧ (holds = true → ∃ id, value = .node id) := by
  rintro cursor holds after rfl - hrun -
  obtain ⟨draft, hkind, rfl⟩ := lift_eq_ok.1 hrun
  obtain ⟨rfl, rfl⟩ := Draft.isKind_eq_ok.1 hkind
  refine ⟨rfl, fun h => ?_⟩
  cases value with
  | node id => exact ⟨id, rfl⟩
  | _ => cases h

section Blocks

variable {block : Value → Parse Value} [∀ appended, Candid (block appended)] (hblock : FillsBlock block)

include hblock

theorem yields_forLoop : Yields (forLoop count block) := by
  refine fun base hfocused => .still_bind fun _ => .still_bind fun _ => .still_bind fun _ => .ite_still fun _ => ?_
  refine .still_bind fun counter => .still_bind fun _ => .still_bind fun _ => ?_
  refine (draws_expression count base hfocused).bind fun start first hstart => .still_bind fun _ => .still_bind fun _ => ?_
  refine (draws_expression count first hstart.grown.later_focused).bind fun condition middle hcondition => .still_bind fun _ => ?_
  refine (fills_counterUpdate counter middle hcondition.grown.later_focused).bind fun update after hupdate => ?_
  refine leads_isKind.bind ?_
  rintro holds _ ⟨rfl, hnode⟩
  split
  case isFalse => exact .loud
  obtain ⟨id, rfl⟩ := hnode ‹_›
  -- The update of the counter was read before the block at whose end it stands.
  refine .still_bind fun _ => (leads_loopBody (hblock hupdate)).bind fun body later hbody => .still_bind fun line => .add_bind (.set_bind ?_)
  rintro _ ⟨⟩
  rw [Sketch.set_add_self]
  refine .still_bind fun line' => .add_bind (.add ?_)
  have hparted := parted_condition hcondition hbody
  have hall := (hstart.append hcondition).toHolds.append hbody
  have hdeclaration := @Holds.addBare _ _ ((declarationNode (.scalar counter) start line .null).set .loopCounter (.bool true)) _
    hall rfl rfl (List.cons_subset_cons _ (List.nil_subset _)) .null
  have hloop := @holds_loop _ _ body condition _ hdeclaration (by simp)
    (hparted.transfer (Sketch.keeps_add _ _ _) hstart.grown.size_le (by simp)) line'
  refine Holds.subset (.addBare hloop rfl rfl ?_ .null) (List.cons_subset_cons _ (List.nil_subset _))
  exact List.Subset.trans (List.Perm.swap _ _ _).subset (List.cons_subset_cons _ (List.cons_subset_cons _ (List.nil_subset _)))

/-! ### Statements -/

omit hblock in
theorem fills_setStatement : Fills (setStatement count) :=
  fun base hfocused => .still_bind fun _ => .still_bind fun _ => .still_bind fun _ => .still_bind fun _ =>
    .still_bind fun _ => .ite (.still_bind fun _ => fills_declaration _ _ base hfocused) .loud

end Blocks

/-- The name at the start of a statement. -/
theorem Leads.name_bind {α : Type} {f : Scalar → Parse α} [∀ name, Flows (f name)] {goal : α → Sketch → Prop}
    (hf : ∀ name, name ≠ .null → Leads sketch (f name) goal) :
    Leads sketch (do
      let name ← currentValue
      expect [.identifier]
      f name) goal := by
  intro cursor b after hcursor haccounts h hquiet
  obtain ⟨_, _, hvalue, h⟩ := bind_eq_ok.1 h
  obtain ⟨⟨name, hname, rfl⟩, rfl⟩ := currentValue_eq_ok.1 hvalue
  have hnull : name.value ≠ .null := by simpa [Journal.Accounts, hname] using haccounts.1
  exact Leads.still_bind (fun _ => hf name.value hnull) hcursor haccounts h hquiet

theorem fills_namedStatement : Fills (namedStatement count) := by
  intro base hfocused
  refine .name_bind fun name hname => .still_bind fun _ => .ite (fills_increment _ base hfocused) ?_
  refine .still_bind fun _ => .ite (fills_decrement _ base hfocused) (.still_bind fun _ => .ite ?_ (.still_bind fun _ => .ite ?_ ?_))
  · have hreceiver : Drawn base [.scalar name] base := ⟨⟨.refl hfocused, List.forall_mem_singleton.2 hname⟩, .inl rfl⟩
    exact (leads_methodChain (draws_expression count) count base base _ hreceiver).mono fun h => holds_statementList h.toHolds
  · exact (draws_functionCall (draws_expression count) count _).fills base hfocused
  · refine .still_bind fun _ => .ite ?_ ?_
    · exact (fills_assignment _ base hfocused).bind fun node later hnode =>
        .focus_bind (.pure ⟨hnode.grown.refocus .null, hnode.has⟩)
    · have hnone : base.Holds [] base := .nil (.refl hfocused)
      exact .still_bind fun _ => .ite (.still_last hnone) (.still_bind fun _ => .still_last hnone)

theorem fills_strayToken : Fills strayToken := by
  refine fun base hfocused => .get_bind fun cursor _ => ?_
  have hnone : base.Holds [] base := .nil (.refl hfocused)
  split
  · exact .still_bind fun _ => .ite (.still_last hnone) (.still_bind fun _ => .still_last hnone)
  · exact .still_last hnone

theorem fills_statementBody {block : Value → Parse Value} [∀ appended, Candid (block appended)] (hblock : FillsBlock block) :
    Fills (statementBody count block) := by
  have hplain : Yields (block .null) := fun _ hfocused => hblock (.nil (.refl hfocused))
  refine fun base hfocused => .get_bind fun cursor _ => ?_
  split
  · exact (yields_conditional hplain).fills base hfocused
  · exact (yields_functionDeclaration hplain).fills base hfocused
  · exact yields_returnStatement.fills base hfocused
  · exact yields_breakStatement.fills base hfocused
  · exact (yields_whileLoop hplain).fills base hfocused
  · exact (yields_forLoop hblock).fills base hfocused
  · exact fills_setStatement base hfocused
  · exact fills_namedStatement base hfocused
  · exact .still_last (.nil (.refl hfocused))
  · exact hplain.fills base hfocused
  · exact fills_strayToken base hfocused

theorem fills_guarded {body : Parse Value} (hbody : Fills body) : Fills (guarded body) := by
  intro base hfocused cursor node after hcursor haccounts h hquiet
  obtain ⟨middle, hrun, hskip⟩ := guarded_quiet h hquiet
  have hsame : after.sketch = middle.sketch := (Obeys.step hskip : still.step middle after)
  rw [hsame]
  exact hbody base hfocused hcursor haccounts hrun ((Flows.onward hskip hquiet).quiet hquiet)

theorem fillsBlock_braced {statements : Parse (List Value)} [Candid statements]
    (hstatements : ∀ base, base.Focused → Leads base statements fun nodes => base.Holds nodes) :
    FillsBlock (braced statements) := by
  intro base sketch appended happended
  refine .still_bind fun _ => .still_bind fun _ => ?_
  refine (hstatements sketch happended.grown.later_focused).bind fun nodes later hnodes => .still_bind fun _ => ?_
  have hall := happended.append hnodes
  have hblock (message : Option String) : Leads later (do
      expect [.rightBrace] message
      Draft.newBlock (.list (if appended.isNull then nodes else nodes ++ [appended]))) fun value => base.Holds [value] := by
    refine .still_bind fun _ => .add ((hall.addBare rfl rfl ?_ .null).subset (by simp))
    show (if appended.isNull then nodes else nodes ++ [appended]) ⊆ _
    split <;> simp
  exact .ite (.still_bind fun _ => hblock _) (.still_bind fun _ => hblock _)

theorem fills_statement_block : ∀ count, Fills (statement count) ∧ FillsBlock (block count)
  | 0 => ⟨fun _ _ => .fail, fun _ => .fail⟩
  | count + 1 => by
      obtain ⟨hstatement, hblock⟩ := fills_statement_block count
      refine ⟨fills_guarded (fills_statementBody hblock), fillsBlock_braced fun base hfocused => ?_⟩
      refine @leads_repeatUntil (fun base nodes later => base.Holds nodes later) _ _ inferInstance
        (fun h => .nil (.refl h.grown.later_focused)) .append (fun base hbase => ?_) count base (.nil (.refl hfocused))
      rw [map_eq_pure_bind]
      exact (hstatement base hbase.grown.focused).bind fun _ _ hnode => .pure hnode

/-! ### Programs -/

def programNode (statements : List Value) : Node :=
  ⟨.program, [(.statements, .list statements), (.symbols, .null)]⟩

/-- A program that has been read: its node is the last one that was made. -/
def Read (base : Sketch) (value : Value) (later : Sketch) : Prop :=
  ∃ inner statements, base.Holds statements inner ∧ value = .node inner.size ∧ later = inner.add (programNode statements)

/-- How reading a program may end: with a program, or with a message. -/
def Settled (base : Sketch) : EStateM.Result Failure Cursor Value → Prop
  | .ok tree after => (after.IsQuiet → Read base tree after.sketch) ∧ (tree = .null → after.journal.IsAlarmed)
  | .error failure after => failure = .fault .outOfSteps ∨ failure = .runaway ∧ after.journal.isFull

theorem settled_newProgram {cursor : Cursor} (h : cursor.IsQuiet → base.Holds values cursor.sketch) :
    Settled base ((liftM (Draft.newProgram (.list values)) : Parse Value) cursor) :=
  ⟨fun hquiet => ⟨cursor.sketch, values, h hquiet, rfl, rfl⟩, nofun⟩

/-- A failure that is seen only here is announced. -/
theorem settled_announced {cursor : Cursor} {kind : ComplaintKind} {message : String} :
    Settled base ((do
      (Journal.announce (.ofMessage kind message) false : Draft.Action Unit)
      Draft.newProgram (.list values) : Parse Value) cursor) := by
  obtain ⟨said, text, heq⟩ := Journal.announce_eq_alarm kind message .null
  show Settled base (EStateM.bind _ _ cursor)
  rw [EStateM.bind, liftM_writer, heq]
  rcases Journal.alarm_cases said text cursor.journal with ⟨hfull, h⟩ | ⟨journal, h, halarm⟩ <;> rw [h]
  · exact .inr ⟨rfl, hfull⟩
  · exact settled_newProgram fun hquiet => absurd hquiet halarm.2

/-- Statement after statement is read, or there is a message. -/
theorem settled_programFrom {statement : Parse Value} [Candid statement] (hstatement : Fills statement) :
    ∀ count {values} {cursor : Cursor}, cursor.Accounts → (cursor.IsQuiet → base.Holds values cursor.sketch) →
      Settled base (programFrom statement count values cursor)
  | 0, _, _, _, _ => .inl rfl
  | count + 1, values, cursor, haccounts, hvalues => by
      rw [programFrom, check_bind]
      split
      case isTrue => exact settled_newProgram hvalues
      case isFalse =>
        show Settled base (EStateM.bind (attempt statement) _ cursor)
        rw [EStateM.bind]
        cases hattempt : attempt statement cursor with
        | error failure after =>
            obtain ⟨hrun, hcaught⟩ := attempt_eq_error.1 hattempt
            have hstop : candid.stop failure cursor after := Obeys.stop hrun
            unfold Failure.isCaught at hcaught
            split at hcaught
            case h_1 => exact .inr ⟨rfl, (hstop.2 haccounts).2 rfl⟩
            case h_2 => exact .inl rfl
            case h_3 => cases hcaught
        | ok outcome middle =>
            rcases attempt_eq_ok.1 hattempt with ⟨node, hrun, rfl⟩ | ⟨failure, hrun, -, rfl⟩
            · have hstep : candid.step cursor middle := Obeys.step hrun
              refine settled_programFrom hstatement count (hstep.accounts haccounts) fun hquiet => ?_
              have hbefore := hvalues ((Flows.onward hrun hquiet).quiet hquiet)
              exact hbefore.append (hstatement _ hbefore.grown.later_focused rfl haccounts hrun hquiet)
            · have hstop : candid.stop failure cursor middle := Obeys.stop hrun
              cases failure with
              | exit =>
                  have halarm := (hstop.2 haccounts).1 rfl
                  exact ⟨fun hquiet => absurd hquiet halarm.2, fun _ => halarm⟩
              | _ => exact settled_announced

theorem settled_program {cursor : Cursor} (haccounts : cursor.Accounts) (hfocused : cursor.sketch.Focused) :
    Settled cursor.sketch (program cursor) :=
  settled_programFrom (fills_statement_block cursor.budget).1 cursor.budget haccounts fun _ => .nil (.refl hfocused)

theorem sketch_start {source : String} {draft : Draft} {cursor : Cursor} (h : Cursor.start source draft = (.ok (), cursor)) :
    cursor.sketch = ⟨draft.graph, .null⟩ := by
  unfold Cursor.start at h
  dsimp only at h
  split at h
  case h_1 hrun =>
    cases h
    exact (Obeys.step hrun : still.step _ _)
  case h_2 => cases h

instance {statement : Parse Value} [Candid statement] : Obeys candid (programFrom statement count values) := by
  induction count generalizing values with
  | zero => exact inferInstanceAs (Obeys candid (fail _))
  | succ count ih =>
      refine .bind inferInstance fun _ => ?_
      split
      · infer_instance
      · refine .bind inferInstance fun outcome => ?_
        split <;> infer_instance

end Parse

/-- A graph of nodes that were read from a text, all for one program. -/
structure Graph.WellLaid (graph : Graph) (root : Value) : Prop where
  closed : graph.Closed 0 graph.nodes.size
  parent : ∀ id parent : Nat, id < graph.nodes.size → (graph.node id).get .parent = .node parent →
    parent < graph.nodes.size
  unmarked : ∀ id : Nat, id < graph.nodes.size → (graph.node id).isUnmarked
  laid : ∀ id : Nat, id < graph.nodes.size → (graph.node id).kind ≠ .program → graph.Laid 0 graph.nodes.size id
  program : ∀ id : Nat, id < graph.nodes.size → (graph.node id).kind = .program → root = .node id
  root : ∀ id : Nat, root = .node id → id < graph.nodes.size ∧ (graph.node id).kind = .program ∧ graph.Closed 0 id ∧
    ((graph.node id).get .statements).Spans 0 id

theorem Sketch.Holds.wellLaid {inner : Sketch} {statements : List Value} (h : Sketch.Holds ⟨{}, .null⟩ statements inner) :
    (inner.add (Parse.programNode statements)).graph.WellLaid (.node inner.size) := by
  have hnew := Sketch.node_add_self inner (Parse.programNode statements)
  have hold : ∀ id : Nat, id < inner.size →
      (inner.add (Parse.programNode statements)).graph.node id = inner.graph.node id :=
    fun id hid => Sketch.node_add_of_ne _ _ hid.ne
  have hsize : (inner.add (Parse.programNode statements)).graph.nodes.size = inner.size + 1 := Sketch.size_add ..
  have hlaid : ∀ id : Nat, id < inner.size → inner.graph.Laid 0 inner.size id := fun id => h.grown.laid id (Nat.zero_le _)
  have hspans : (Value.list statements).Spans 0 inner.size := Value.spans_list.2 fun value hvalue => (h.has value hvalue).spans
  have hclosed : (inner.add (Parse.programNode statements)).graph.Closed 0 inner.size :=
    h.grown.closed.transfer fun id _ hid => .of_eq (hold id hid)
  constructor <;> rw [hsize]
  case closed =>
    intro id child _ hid hbelow
    rcases Nat.lt_succ_iff_lt_or_eq.1 hid with hid | rfl
    · exact (hclosed id child (Nat.zero_le _) hid hbelow).imp_right fun hlt => Nat.lt_succ_of_lt hlt
    · obtain ⟨field, hfield, hchild⟩ := hbelow
      rw [hnew] at hfield hchild
      obtain rfl := List.mem_singleton.1 hfield
      exact (hspans child hchild).imp_right fun hlt => Nat.lt_succ_of_lt hlt
  case parent =>
    intro id parent hid hget
    rcases Nat.lt_succ_iff_lt_or_eq.1 hid with hid | rfl
    · rw [hold id hid] at hget
      rcases h.grown.parent id (Nat.zero_le _) hid with hspans | hnull
      · exact Nat.lt_succ_of_lt (hspans parent (hget ▸ .node)).2
      · cases hnull.symm.trans hget
    · rw [hnew] at hget
      cases hget
  case unmarked =>
    intro id hid
    rcases Nat.lt_succ_iff_lt_or_eq.1 hid with hid | rfl
    · rw [hold id hid]
      exact (hlaid id hid).unmarked
    · rw [hnew]
      rfl
  case laid =>
    intro id hid hkind
    rcases Nat.lt_succ_iff_lt_or_eq.1 hid with hid | rfl
    · refine (hlaid id hid).transfer ⟨Nat.zero_le _, hid⟩ (Sketch.keeps_add _ _ _) (le_refl _) (Nat.le_succ _)
        fun _ parent hget => .inl ?_
      rwa [hold id hid] at hget
    · rw [hnew] at hkind
      exact absurd rfl hkind
  case program =>
    intro id hid hkind
    rcases Nat.lt_succ_iff_lt_or_eq.1 hid with hid | rfl
    · rw [hold id hid] at hkind
      exact absurd hkind fun heq => (hlaid id hid).kind (by simp [heq])
    · rfl
  case root =>
    rintro _ ⟨⟩
    rw [hnew]
    exact ⟨Nat.lt_succ_self _, rfl, hclosed, hspans⟩

/-- What is read from a text without an error is laid out well. -/
theorem wellLaid_parseSource {source : String} {tree : Value} {draft : Draft} (h : parseSource source {} = .ok tree draft)
    (hunflagged : draft.journal.flagged = false) : draft.graph.WellLaid tree := by
  unfold parseSource at h
  split at h
  case h_1 => cases h
  case h_2 cursor hstart =>
    split at h
    case h_2 => cases h
    case h_1 tree last hrun =>
      obtain ⟨rfl, rfl⟩ := EStateM.Result.ok.inj h
      have hsketch := Parse.sketch_start hstart
      obtain ⟨haccounts, hwarns⟩ := Parse.accounts_start hstart
      have hsettled := Parse.settled_program haccounts (by simp [hsketch, Sketch.Focused])
      have hstep : Parse.candid.step cursor last :=
        Obeys.step (show Parse.programFrom (Parse.statement cursor.budget) cursor.budget [] cursor = _ from hrun)
      have halarm : ¬ last.journal.IsAlarmed := fun halarm => by simp [halarm.1] at hunflagged
      have hquiet : last.IsQuiet :=
        ((hstep.told haccounts).resolve_right halarm).trans (hwarns.told.resolve_right fun h => halarm (hstep.alarm h))
      rw [hrun, hsketch] at hsettled
      obtain ⟨inner, statements, hholds, rfl, hlast⟩ := hsettled.1 hquiet
      rw [show last.toDraft.graph = _ from congrArg Sketch.graph hlast]
      exact hholds.wellLaid

end Scriptlet
