import Scriptlet.Proofs.Grammar.Tracking

/-!
Expressions, statements and blocks are read alike by themselves and before other text.
-/

set_option synthInstance.maxSize 10000000

namespace Scriptlet.Parse

variable {α β : Type} [Mirror α] [Mirror β] {setting : Setting} {count : Nat}
variable {name name' value value' type type' : Value} {names names' : List Value}

/-! ### Expressions -/

instance (operator : String) [Mirrored setting name name'] :
    Tracks setting (stepNode name operator) (stepNode name' operator) := by
  unfold stepNode
  infer_instance

instance (kind : Kind) (value : Scalar) :
    Tracks setting (literalNode kind (.scalar value)) (literalNode kind (.scalar value)) := by
  unfold literalNode
  infer_instance

/-- A way to join operands that is the same in both readings. -/
class TracksJoin (setting : Setting) (join : Value → Value → Value → Parse Value) : Prop where
  tracks : ∀ left operator right : Twin setting Value,
    Tracks setting (join left.here operator.here right.here) (join left.there operator.there right.there)

instance : TracksJoin setting joinLogical := by
  unfold joinLogical
  exact ⟨fun _ _ _ => inferInstance⟩

instance : TracksJoin setting joinComparison := by
  unfold joinComparison
  exact ⟨fun _ _ _ => inferInstance⟩

instance : TracksJoin setting joinProduct := by
  unfold joinProduct
  exact ⟨fun _ _ _ => inferInstance⟩

instance {operators : List TokenKind} {operand operand' : Parse Value} {join : Value → Value → Value → Parse Value}
    [Tracks setting operand operand'] [Candid operand] [∀ left operator right, Candid (join left operator right)]
    [hjoin : TracksJoin setting join] {left left' : Value} [h : Mirrored setting left left'] :
    Tracks setting (leftChain operators operand join count left) (leftChain operators operand' join count left') := by
  have : ∀ {left left' operator operator' right right' : Value} [Mirrored setting left left']
      [Mirrored setting operator operator'] [Mirrored setting right right'],
      Tracks setting (join left operator right) (join left' operator' right') := fun {l l' o o' r r'} hl ho hr =>
    hjoin.tracks ⟨l, l', hl.rel⟩ ⟨o, o', ho.rel⟩ ⟨r, r', hr.rel⟩
  induction count generalizing left left' with
  | zero => exact inferInstanceAs (Tracks setting (fail _) _)
  | succ count ih =>
      unfold leftChain
      infer_instance

section Expressions

variable {expression expression' : Parse Value} [Tracks setting expression expression'] [Candid expression]

instance {item item' : Parse (List Value)} [Tracks setting item item'] [Candid item] :
    Tracks setting (argumentList item count) (argumentList item' count) := by
  unfold argumentList
  infer_instance

/-- What is left of reading an argument: its value is given to it if it belongs to nothing else. -/
def adopt (value argument : Value) : Parse (List Value) := do
  if ← Draft.hasField value .parent then
    if (← Draft.getField value .parent).isNull then
      Draft.setField value .parent argument
  return [argument]

/-- At most the parent of a node is changed. -/
theorem adopt_eq (value argument : Value) (cursor : Cursor) :
    ∃ graph, adopt value argument cursor = .ok [argument] { cursor with graph } ∧
      (graph = cursor.graph ∨ ∃ id, value = .node id ∧ ((cursor.graph.node id).get? .parent).isSome ∧
        graph = cursor.graph.setField id .parent argument) := by
  cases hfound : cursor.graph.fieldOf? value .parent with
  | none =>
      have hhas : (liftM (Draft.hasField value .parent) : Parse Bool) cursor = .ok false cursor :=
        lift_hasField_eq_ok.2 ⟨congrArg Option.isSome hfound, rfl⟩
      exact ⟨cursor.graph, bind_eq_ok.2 ⟨false, cursor, hhas, rfl⟩, .inl rfl⟩
  | some parent =>
      obtain ⟨id, rfl⟩ : ∃ id, value = .node id := by
        cases value with
        | node id => exact ⟨id, rfl⟩
        | _ => simp [Graph.fieldOf?] at hfound
      have hhas : (liftM (Draft.hasField (.node id) .parent) : Parse Bool) cursor = .ok true cursor :=
        lift_hasField_eq_ok.2 ⟨congrArg Option.isSome hfound, rfl⟩
      have hget : (liftM (Draft.getField (.node id) .parent) : Parse Value) cursor = .ok parent cursor :=
        lift_getField_eq_ok.2 ⟨hfound, rfl⟩
      cases hnull : parent.isNull with
      | false =>
          refine ⟨cursor.graph, bind_eq_ok.2 ⟨true, cursor, hhas, bind_eq_ok.2 ⟨parent, cursor, hget, ?_⟩⟩, .inl rfl⟩
          rw [hnull]
          rfl
      | true =>
          refine ⟨cursor.graph.setField id .parent argument,
            bind_eq_ok.2 ⟨true, cursor, hhas, bind_eq_ok.2 ⟨parent, cursor, hget, ?_⟩⟩,
            .inr ⟨id, rfl, congrArg Option.isSome hfound, rfl⟩⟩
          rw [hnull]
          exact bind_eq_ok.2 ⟨(), _, lift_setField_eq_ok.2 rfl, rfl⟩

/-- Only one of the two readings may change a parent. -/
instance {value value' argument argument' : Value} [hvalue : Mirrored setting value value']
    [hargument : Mirrored setting argument argument'] :
    Tracks setting (adopt value argument) (adopt value' argument') := by
  refine ⟨fun {cursor other} hmatches a after _ h _ => ?_⟩
  obtain ⟨graph, hrun, hgraph⟩ := adopt_eq value argument cursor
  obtain ⟨graph', hrun', hgraph'⟩ := adopt_eq value' argument' other
  obtain ⟨rfl, rfl⟩ := EStateM.Result.ok.inj (hrun.symm.trans h)
  have hleft : setting.MirrorsGraph graph other.graph := by
    rcases hgraph with rfl | ⟨id, rfl, hsome, rfl⟩
    · exact hmatches.graph
    · exact hmatches.graph.setField_left rfl hsome _
  have hboth : setting.MirrorsGraph graph graph' := by
    rcases hgraph' with rfl | ⟨id, rfl, hsome, rfl⟩
    · exact hleft
    · obtain ⟨hrel⟩ := hvalue
      cases hrel with
      | @node id _ =>
        refine hleft.setField_right rfl ?_ _
        rwa [← (hleft.nodes id).isSome_get?]
  refine ⟨_, _, hrun', ⟨⟨hboth, hmatches.journal, hmatches.inFunction, hmatches.inLoop, hmatches.focus⟩, ?_⟩, .cons hargument.rel .nil⟩
  exact hmatches.window.of_eq rfl rfl rfl rfl rfl rfl

instance (value argument : Value) : Flows (adopt value argument) := by
  unfold adopt
  infer_instance

theorem callArgument_eq (expression : Parse Value) : callArgument expression = (do
    let argument ← Draft.newArgument .null
    setFocus argument
    let value ← expression
    if value.isNull then return []
    Draft.setField argument .value value
    adopt value argument) := rfl

instance : Tracks setting (callArgument expression) (callArgument expression') := by
  rw [callArgument_eq, callArgument_eq]
  infer_instance

instance {receiver receiver' : Value} [Mirrored setting receiver receiver'] :
    Tracks setting (methodChain expression count receiver) (methodChain expression' count receiver') := by
  induction count generalizing receiver receiver' with
  | zero => exact inferInstanceAs (Tracks setting (fail _) _)
  | succ count ih =>
      unfold methodChain
      infer_instance

instance (name : Scalar) :
    Tracks setting (functionCall expression count (.scalar name)) (functionCall expression' count (.scalar name)) := by
  unfold functionCall
  infer_instance

instance : Tracks setting (named expression count) (named expression' count) := by
  unfold named
  infer_instance

instance : Tracks setting (primaryWith expression count) (primaryWith expression' count) := by
  refine .get_bind fun hmatches => ?_
  rw [hmatches.currentKind?]
  split <;> infer_instance

end Expressions

theorem levelsTrack (setting : Setting) (count : Nat) : Levels (Tracks setting) count count := by
  induction count with
  | zero => constructor <;> exact inferInstanceAs (Tracks setting (fail _) _)
  | succ count ih =>
      obtain ⟨_, _, _, _, _, _, _, _⟩ := ih
      obtain ⟨_, _, _, _, _, _, _, _⟩ := levelsFlow count
      constructor <;>
        simp only [expression, equality, comparison, additive, joinSum, term, factor, exponent, unary, unaryWith, primary] <;>
        infer_instance

instance : Tracks setting (expression count) (expression count) :=
  (levelsTrack setting count).expression

/-! ### Statements -/

instance [Mirrored setting name name'] : Tracks setting (increment name) (increment name') := by
  unfold increment
  infer_instance

instance [Mirrored setting name name'] : Tracks setting (decrement name) (decrement name') := by
  unfold decrement
  infer_instance

instance : Tracks setting declaredType declaredType := by
  unfold declaredType
  infer_instance

instance {given given' : Value} [hgiven : Mirrored setting given given'] [htype : Mirrored setting type type'] :
    Mirrored setting (declaredNames.sameType given type) (declaredNames.sameType given' type') := by
  obtain ⟨hgiven⟩ := hgiven
  obtain ⟨htype⟩ := htype
  cases hgiven <;> cases htype <;> exact ⟨rfl⟩

instance {list list' : NameList} [Mirrored setting list list'] :
    Tracks setting (declaredNames count list) (declaredNames count list') := by
  induction count generalizing list list' with
  | zero => exact inferInstanceAs (Tracks setting (fail _) _)
  | succ count ih =>
      unfold declaredNames
      infer_instance

instance [Mirrored setting type type'] [Mirrored setting value value'] [Mirrored setting names names'] :
    Tracks setting (declareAll type value names) (declareAll type' value' names') := by
  unfold declareAll
  infer_instance

instance [hname : Mirrored setting name name'] [htype : Mirrored setting type type'] :
    Tracks setting (declaration count name type) (declaration count name' type') := by
  have : Tracks setting
      (declaredNames count ⟨[name], type⟩ >>= fun
        | none => return .null
        | some list => do declareAll list.type (← expression count) list.names)
      (declaredNames count ⟨[name'], type'⟩ >>= fun
        | none => return .null
        | some list => do declareAll list.type (← expression count) list.names) := by
    refine .bind inferInstance inferInstance (fun found => by cases found <;> infer_instance) fun found found' hfound => ?_
    cases hfound with
    | none => infer_instance
    | @some list list' hlist =>
        have : Mirrored setting list list' := ⟨hlist⟩
        infer_instance
  unfold declaration
  infer_instance

instance [Mirrored setting names names'] : Tracks setting (assignedNames count names) (assignedNames count names') := by
  induction count generalizing names names' with
  | zero => exact inferInstanceAs (Tracks setting (fail _) _)
  | succ count ih =>
      unfold assignedNames
      infer_instance

instance [Mirrored setting value value'] : Tracks setting (completeFocus value) (completeFocus value') := by
  refine .get_bind fun {cursor other} hmatches => ?_
  rcases hmatches.focus with hfocus | hfocus
  · -- where nothing is in focus there is nothing to complete
    rw [hfocus]
    refine ⟨fun _ a after _ h => ?_⟩
    obtain ⟨_, middle, hset, -⟩ := bind_eq_ok.1 h
    obtain ⟨draft, hset, -⟩ := lift_eq_ok.1 hset
    simp [Draft.setField] at hset
  · have : Mirrored setting cursor.focus other.focus := ⟨hfocus⟩
    infer_instance

instance [Mirrored setting name name'] : Tracks setting (assignment count name) (assignment count name') := by
  unfold assignment assignAll
  infer_instance

instance : Tracks setting adviseOnToken adviseOnToken := by
  refine .get_bind fun hmatches => ?_
  rw [hmatches.window.current]
  split
  · infer_instance
  · split <;> infer_instance

instance : Tracks setting adviseOnName adviseOnName := by
  refine .get_bind fun hmatches => ?_
  rw [hmatches.window.current]
  split
  · split <;> infer_instance
  · infer_instance

instance : Tracks setting strayToken strayToken := by
  refine .get_bind fun hmatches => ?_
  rw [hmatches.window.current]
  split <;> infer_instance

instance : Tracks setting (parameters count) (parameters count) := by
  induction count with
  | zero => exact inferInstanceAs (Tracks setting (fail _) _)
  | succ count ih =>
      unfold parameters
      infer_instance

instance (value : Scalar) : Tracks setting (returnType value) (returnType value) := by
  unfold returnType
  infer_instance

instance : Tracks setting (returnStatement count) (returnStatement count) := by
  refine .get_bind fun hmatches => ?_
  rw [hmatches.inFunction]
  infer_instance

instance : Tracks setting breakStatement breakStatement := by
  refine .get_bind fun hmatches => ?_
  rw [hmatches.inLoop]
  infer_instance

section Blocks

variable {block block' : Parse Value} [hblock : Tracks setting block block'] [hflows : Candid block]

instance {expression expression' : Parse Value} [Tracks setting expression expression'] [Candid expression] :
    Tracks setting (elifBranches expression block count) (elifBranches expression' block' count) := by
  induction count with
  | zero => exact inferInstanceAs (Tracks setting (fail _) _)
  | succ count ih =>
      unfold elifBranches
      infer_instance

omit hflows in
theorem tracks_marked (mark : Bool → Cursor → Cursor) {f f' : Value → Parse Value} (hflows : ∀ body, Flows (f body))
    (hf : ∀ body : Twin setting Value, Tracks setting (f body.here) (f' body.there))
    (hmark : ∀ {raised cursor other}, setting.Matches cursor other → setting.Matches (mark raised cursor) (mark raised other))
    (hsound : ∀ {raised cursor}, cursor.IsSound → (mark raised cursor).IsSound)
    (hinside : ∀ {raised cursor}, setting.Inside (mark raised cursor) → setting.Inside cursor) [hblock' : Candid block] :
    Tracks setting (do modify (mark true); let body ← block; modify (mark false); f body)
      (do modify (mark true); let body ← block'; modify (mark false); f' body) := by
  refine ⟨fun {cursor other} hmatches a after hfits h hin => ?_⟩
  obtain ⟨_, raised, hraise, h⟩ := bind_eq_ok.1 h
  obtain rfl := modify_eq_ok.1 hraise
  obtain ⟨body, middle, hbody, h⟩ := bind_eq_ok.1 h
  obtain ⟨_, lowered, hlower, h⟩ := bind_eq_ok.1 h
  obtain rfl := modify_eq_ok.1 hlower
  have hmiddle := hinside (hin.of_onward ((hflows body).onward h hin.quiet))
  obtain ⟨body', later, hbody', hmatches', hsame⟩ := hblock.run (hmark hmatches) (hsound ∘ hfits) hbody hmiddle
  have hfits' : setting.Fits (mark false middle) := fun htail =>
    hsound ((hblock'.flows.onward hbody hmiddle.quiet).sound (hsound (hfits htail)))
  obtain ⟨b, last, h', hlast, hsame'⟩ := (hf ⟨body, body', hsame⟩).run (hmark hmatches') hfits' h hin
  refine ⟨b, last, ?_, hlast, hsame'⟩
  exact bind_eq_ok.2 ⟨⟨⟩, mark true other, rfl, bind_eq_ok.2 ⟨body', later, hbody',
    bind_eq_ok.2 ⟨⟨⟩, mark false later, rfl, h'⟩⟩⟩

instance : Tracks setting (loopBody block) (loopBody block') := by
  refine tracks_marked (fun inLoop cursor => { cursor with inLoop }) (fun _ => inferInstance)
    (fun _ => inferInstance) (fun h => ?_) (fun h => ⟨h.lines, h.last, h.ending⟩) fun h => ⟨h.quiet, h.not_eof, h.size⟩
  exact ⟨⟨h.graph, h.journal, h.inFunction, rfl, h.focus⟩, h.window.of_eq rfl rfl rfl rfl rfl rfl⟩

instance (priority := high) {f f' : Value → Parse Value} [∀ body, Flows (f body)]
    [∀ body : Twin setting Value, Tracks setting (f body.here) (f' body.there)] :
    Tracks setting
      (do
        modify fun cursor => { cursor with inFunction := true }
        let body ← block
        modify fun cursor => { cursor with inFunction := false }
        f body)
      (do
        modify fun cursor => { cursor with inFunction := true }
        let body ← block'
        modify fun cursor => { cursor with inFunction := false }
        f' body) := by
  refine tracks_marked (fun inFunction cursor => { cursor with inFunction }) (fun _ => inferInstance)
    (fun _ => inferInstance) (fun h => ?_) (fun h => ⟨h.lines, h.last, h.ending⟩) fun h => ⟨h.quiet, h.not_eof, h.size⟩
  exact ⟨⟨h.graph, h.journal, rfl, h.inLoop, h.focus⟩, h.window.of_eq rfl rfl rfl rfl rfl rfl⟩

instance : Tracks setting (guarded block) (guarded block') := by
  refine ⟨fun hmatches a after hfits h hinside => ?_⟩
  obtain ⟨middle, hrun, hskip⟩ := guarded_quiet h hinside.quiet
  have hmiddle := hinside.of_onward (Flows.onward hskip hinside.quiet)
  obtain ⟨b, later, hrun', hmatches', hsame⟩ := hblock.run hmatches hfits hrun hmiddle
  have hfits' : setting.Fits middle := fun htail => (hflows.flows.onward hrun hmiddle.quiet).sound (hfits htail)
  have htracks : Tracks setting skipNewlines skipNewlines := inferInstance
  obtain ⟨_, last, hskip', hlast, -⟩ := htracks.run hmatches' hfits' hskip hinside
  exact ⟨b, last, guarded_eq_ok hrun' hskip', hlast, hsame⟩

end Blocks

section Bodies

variable {block block' : Value → Parse Value} [∀ appended, Candid (block appended)]
  [hblock : ∀ appended : Twin setting Value, Tracks setting (block appended.here) (block' appended.there)]

instance : Tracks setting (statementBody count block) (statementBody count block') := by
  have hnull : Tracks setting (block .null) (block' .null) := hblock ⟨.null, .null, .scalar .null⟩
  unfold statementBody conditional functionDeclaration whileLoop forLoop counterUpdate setStatement namedStatement
  refine .get_bind fun hmatches => ?_
  rw [hmatches.currentKind?]
  split <;> infer_instance

end Bodies

theorem tracks_statement_block (setting : Setting) (count : Nat) :
    Tracks setting (statement count) (statement count) ∧
      ∀ appended : Twin setting Value, Tracks setting (block count appended.here) (block count appended.there) := by
  induction count with
  | zero => exact ⟨inferInstanceAs (Tracks setting (fail _) _), fun _ => inferInstanceAs (Tracks setting (fail _) _)⟩
  | succ count ih =>
      obtain ⟨_, _⟩ := ih
      unfold statement block braced
      exact ⟨inferInstance, fun _ => inferInstance⟩

instance (appended : Twin setting Value) :
    Tracks setting (block count appended.here) (block count appended.there) :=
  (tracks_statement_block setting count).2 appended

end Scriptlet.Parse
