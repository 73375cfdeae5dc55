import Scriptlet.Proofs.Visits

/-!
The rules of the analysis are open: they do with the visits of the nodes below nothing but carry them
out, in whatever states they come to.
-/

set_option synthInstance.maxSize 1000000

namespace Scriptlet.Check

variable {halts : Analysis → Prop} {firm : Prop} {visit visit' : Value → Check Unit}
variable {node : Value}

theorem shadows_allBranches {check check' : Value → Check Bool}
    (hcheck : ∀ block, Shadows halts firm (check block) (check' block)) :
    ∀ branches, Shadows halts firm (allBranches check branches) (allBranches check' branches)
  | [] => .refl _
  | branch :: rest => by
      have := shadows_allBranches hcheck rest
      unfold allBranches
      infer_instance

mutual

theorem shadows_statementsReturnWithin (hvisit : ∀ value, Shadows halts firm (visit value) (visit' value)) :
    ∀ depth block,
      Shadows halts firm (statementsReturnWithin visit depth block) (statementsReturnWithin visit' depth block)
  | 0, _ => .refl _
  | depth + 1, block => by
      have := shadows_conditionalReturnsWithin hvisit depth
      refine .bind (.refl _) fun _ => .bind (.refl _) fun statements =>
        .bind (.forIn fun statement returns => ?_) fun _ => .refl _
      refine .bind (hvisit statement) fun _ => .bind (.refl _) fun graph => ?_
      split <;> infer_instance

theorem shadows_conditionalReturnsWithin (hvisit : ∀ value, Shadows halts firm (visit value) (visit' value)) :
    ∀ depth node,
      Shadows halts firm (conditionalReturnsWithin visit depth node) (conditionalReturnsWithin visit' depth node)
  | 0, _ => .refl _
  | depth + 1, node => by
      have hreturn := shadows_statementsReturnWithin hvisit depth
      have := shadows_allBranches hreturn
      unfold conditionalReturnsWithin
      infer_instance

end

theorem shadows_checkArguments (hvisit : ∀ value, Shadows halts firm (visit value) (visit' value)) (call : Value) :
    ∀ arguments parameters, Shadows halts firm (checkArguments visit call arguments parameters)
      (checkArguments visit' call arguments parameters)
  | argument :: arguments, parameter :: parameters => by
      have := shadows_checkArguments hvisit call arguments parameters
      unfold checkArguments
      infer_instance
  | [], _ => .refl _
  | _ :: _, [] => .refl _

section

variable [hvisit : ∀ value, Shadows halts firm (visit value) (visit' value)]
variable {node : Value}

instance (depth : Nat) : Shadows halts firm (partsWithin visit depth node) (partsWithin visit' depth node) := by
  induction depth generalizing node with
  | zero => exact .refl _
  | succ depth ih =>
      unfold partsWithin
      infer_instance

instance (depth : Nat) (call : Value) :
    Shadows halts firm (checkMethodWithin visit depth call) (checkMethodWithin visit' depth call) := by
  induction depth generalizing call with
  | zero => exact .refl _
  | succ depth ih =>
      unfold checkMethodWithin
      infer_instance

instance (block : Value) : Shadows halts firm (statementsReturn visit block) (statementsReturn visit' block) :=
  shadows_statementsReturnWithin hvisit walkDepth block

instance : Shadows halts firm (answerTypeOf visit node) (answerTypeOf visit' node) := by
  refine .bind (.refl _) fun args => .bind (.refl _) fun arity => ?_
  dsimp only
  split
  · refine .bind (.refl _) fun items => ?_
    split <;> infer_instance
  · refine .bind (.refl _) fun _ => .bind (.refl _) fun _ => .bind (.refl _) fun _ => .bind (.refl _) fun items => ?_
    split <;> infer_instance

instance : Shadows halts firm (visitCall visit node) (visitCall visit' node) := by
  have := shadows_checkArguments hvisit node
  refine .bind (.refl _) fun name => ?_
  split
  · infer_instance
  · refine .bind (.refl _) fun table => ?_
    split <;> infer_instance

instance : Shadows halts firm (visitOperands visit node) (visitOperands visit' node) := by
  unfold visitOperands
  infer_instance

instance : Shadows halts firm (visitStatements visit node) (visitStatements visit' node) := by
  unfold visitStatements
  infer_instance

end

/-- The rule for programs is the only one with a handler around visits. -/
theorem open_visitNode {kind : Kind} (h : firm → kind ≠ .program) :
    Open firm fun visit => visitNode visit node kind := by
  refine ⟨fun halts visit visit' hvisit => ?_⟩
  cases kind
  case program =>
    have hfirm : firm = False := eq_false fun hfirm => h hfirm rfl
    subst hfirm
    simp only [visitNode]
    unfold visitProgram
    infer_instance
  all_goals
    simp only [visitNode, visitDeclaration, visitUpdate, visitBlock, visitConditional, visitLoop, visitMethod, visitFunction,
      visitReturn, visitComparison, visitBinary, concatCheck, toConcat, visitUnary]
    infer_instance

instance (kind : Kind) : Open False fun visit => visitNode visit node kind :=
  open_visitNode False.elim

instance : Open firm fun visit => visitStatements visit node :=
  ⟨fun _ _ _ _ => inferInstance⟩

end Scriptlet.Check
