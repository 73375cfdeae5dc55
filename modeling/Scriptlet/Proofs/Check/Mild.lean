import Scriptlet.Proofs.Check.Reading

/-!
Rules of conduct that the analysis keeps whatever it does: they mind the announcements, the table of
scopes and what is expected of returns, and no other part of the state.
-/

set_option synthInstance.maxSize 1000000

namespace Scriptlet.Check

variable {node operand type left operator value right leftType rightType : Value} {depth : Nat}

/-- A rule that minds only announcements, the table of scopes and what is expected of returns. -/
class Mild (rule : Rule Analysis) : Prop extends rule.IsLenient where
  announce : ∀ (failure : Failure) (exits : Bool) (line : Scalar),
    Obeys rule (liftM (liftM (Journal.announce failure exits line) : Draft.Action Unit) : Check Unit)
  refuse : ∀ {α : Type} (kind : ComplaintKind) (message : String) (line : Scalar),
    Obeys rule (refuse kind message line : Check α)
  modify : ∀ {change : Analysis → Analysis}, (∀ s, (change s).toDraft = s.toDraft ∧ (change s).table = s.table ∧
    (change s).functionName = s.functionName ∧ (change s).functionType = s.functionType) →
    Obeys rule (modify change : Check PUnit)

variable {α : Type} {rule : Rule Analysis} [hrule : Mild rule]

instance (failure : Failure) (exits : Bool) (line : Scalar) :
    Obeys rule (liftM (liftM (Journal.announce failure exits line) : Draft.Action Unit) : Check Unit) :=
  hrule.announce failure exits line

instance (kind : ComplaintKind) (message : String) (line : Scalar) : Obeys rule (refuse kind message line : Check α) :=
  hrule.refuse kind message line

instance [∀ table, Obeys rule (setTable table)] (change : ScopeTable → Except Fault ScopeTable)
    [∀ table, Sane (change table)] : Obeys rule (changeTable change) := by
  unfold changeTable
  infer_instance

instance (literal : Value) : Obeys rule (promoted literal) := by
  unfold promoted
  infer_instance

/-! #### Constants, promotion and operands -/

instance : Obeys rule (operandText operand) := by
  unfold operandText
  infer_instance

instance (below : Value → Check Unit) [∀ value, Obeys rule (below value)] (field : Field) :
    Obeys rule (promoteSide below node field type) := by
  unfold promoteSide
  infer_instance

instance : Obeys rule (promoteWithin depth type node) := by
  induction depth generalizing type node with
  | zero => exact inferInstanceAs (Obeys rule (fail _))
  | succ depth ih =>
      unfold promoteWithin
      infer_instance

instance : Obeys rule (promote node) := by
  unfold promote
  infer_instance

instance : Obeys rule (promotePowerWithin depth type node) := by
  induction depth generalizing type node with
  | zero => exact inferInstanceAs (Obeys rule (fail _))
  | succ depth ih =>
      unfold promotePowerWithin
      infer_instance

instance : Obeys rule (checkOperands node left right operator leftType rightType) := by
  unfold checkOperands checkArithmetic promotePower checkComparison compareTypeNames resolved
  infer_instance

instance : Obeys rule (checkCondition node) := by
  unfold checkCondition
  infer_instance

/-! #### Concatenations -/

section Visits

variable (visit : Value → Check Unit) [hvisit : ∀ value, Obeys rule (visit value)]
variable {node name : Value}

instance (depth : Nat) : Obeys rule (partsWithin visit depth node) := by
  induction depth generalizing node with
  | zero => exact inferInstanceAs (Obeys rule (fail _))
  | succ depth ih =>
      unfold partsWithin typeText isTextSum
      infer_instance

instance : Obeys rule (toConcat visit node) := by
  have hmore : ∀ concat, Obeys rule
      (modify fun analysis => { analysis with concats := analysis.concats ++ [concat] } : Check PUnit) :=
    fun concat => hrule.modify fun _ => ⟨rfl, rfl, rfl, rfl⟩
  unfold toConcat
  infer_instance

instance : Obeys rule (referenceText node) := by
  refine .bind inferInstance fun name => .bind inferInstance fun table => .bind inferInstance fun scope => ?_
  dsimp only
  split <;> infer_instance

instance (joining : Joining) (part : Value) : Obeys rule (joinPart joining part) := by
  refine .bind inferInstance fun graph => ?_
  dsimp only
  split
  · refine .bind inferInstance fun value => ?_
    split
    · infer_instance
    · refine .bind inferInstance fun text => ?_
      split <;> infer_instance
  all_goals infer_instance

/-! #### Rules for nodes -/

instance (type : Value) : Obeys rule (declaredType node name type) := by
  unfold declaredType promoteDeclared
  infer_instance

instance [∀ table, Obeys rule (setTable table)] (type : Value) : Obeys rule (recordUpdate node name type) := by
  refine .bind inferInstance fun table => ?_
  dsimp only
  split
  · split
    · refine .bind inferInstance fun annotated => ?_
      split <;> infer_instance
    · infer_instance
  · infer_instance

instance : Obeys rule (visitReference node) := by
  refine .bind inferInstance fun name => .bind inferInstance fun table => ?_
  split <;> infer_instance

instance : Obeys rule (visitLoop visit node) := by
  have hloop : ∀ inLoop, Obeys rule (modify fun analysis => { analysis with inLoop } : Check PUnit) :=
    fun _ => hrule.modify fun _ => ⟨rfl, rfl, rfl, rfl⟩
  unfold visitLoop
  infer_instance

theorem mild_checkMethodArguments (call : Value) :
    ∀ arguments parameters, Obeys rule (checkMethodArguments call arguments parameters)
  | argument :: arguments, expected :: parameters => by
      have := mild_checkMethodArguments call arguments parameters
      unfold checkMethodArguments
      infer_instance
  | [], _ | _ :: _, [] => inferInstanceAs (Obeys rule (pure _))

instance (depth : Nat) (call : Value) : Obeys rule (checkMethodWithin visit depth call) := by
  induction depth generalizing call with
  | zero => exact inferInstanceAs (Obeys rule (fail _))
  | succ depth ih =>
      have harguments : ∀ arguments parameters, Obeys rule (checkMethodArguments call arguments parameters) :=
        mild_checkMethodArguments call
      refine .bind inferInstance fun receiver => .bind inferInstance fun isCall => ?_
      dsimp only
      split
      · refine .bind inferInstance fun type => .bind inferInstance fun name => ?_
        split <;> infer_instance
      · refine .bind inferInstance fun _ => .bind inferInstance fun _ => .bind inferInstance fun type =>
          .bind inferInstance fun name => ?_
        split <;> infer_instance

theorem mild_allBranches {check : Value → Check Bool} (hcheck : ∀ block, Obeys rule (check block)) :
    ∀ branches, Obeys rule (allBranches check branches)
  | [] => inferInstanceAs (Obeys rule (pure _))
  | branch :: rest => by
      have := mild_allBranches hcheck rest
      unfold allBranches
      infer_instance

mutual

theorem mild_statementsReturnWithin {visit : Value → Check Unit} (hvisit : ∀ value, Obeys rule (visit value)) :
    ∀ depth block, Obeys rule (statementsReturnWithin visit depth block)
  | 0, _ => inferInstanceAs (Obeys rule (fail _))
  | depth + 1, block => by
      have hconditional := mild_conditionalReturnsWithin hvisit depth
      refine .bind inferInstance fun _ => .bind inferInstance fun statements =>
        .bind (.forIn fun statement returns => ?_) fun _ => inferInstance
      refine .bind inferInstance fun _ => .bind inferInstance fun graph => ?_
      split <;> infer_instance

theorem mild_conditionalReturnsWithin {visit : Value → Check Unit} (hvisit : ∀ value, Obeys rule (visit value)) :
    ∀ depth node, Obeys rule (conditionalReturnsWithin visit depth node)
  | 0, _ => inferInstanceAs (Obeys rule (fail _))
  | depth + 1, node => by
      have hreturn := mild_statementsReturnWithin hvisit depth
      have hbranches := mild_allBranches hreturn
      unfold conditionalReturnsWithin
      infer_instance

end

instance (block : Value) : Obeys rule (statementsReturn visit block) :=
  mild_statementsReturnWithin hvisit walkDepth block

instance [∀ table, Obeys rule (setTable table)] [∀ name type, Obeys rule (setFunction name type)] :
    Obeys rule (visitFunction visit node) := by
  unfold visitFunction
  infer_instance

instance : Obeys rule (answerTypeOf visit node) := by
  refine .bind inferInstance fun args => .bind inferInstance fun arity => ?_
  dsimp only
  split
  · refine .bind inferInstance fun items => ?_
    split <;> infer_instance
  · refine .bind inferInstance fun _ => .bind inferInstance fun _ => .bind inferInstance fun _ =>
      .bind inferInstance fun items => ?_
    split <;> infer_instance

theorem mild_checkArguments (call : Value) :
    ∀ arguments parameters, Obeys rule (checkArguments visit call arguments parameters)
  | argument :: arguments, parameter :: parameters => by
      have := mild_checkArguments call arguments parameters
      unfold checkArguments promoteArgument
      infer_instance
  | [], _ | _ :: _, [] => inferInstanceAs (Obeys rule (pure _))

instance : Obeys rule (visitCall visit node) := by
  have harguments : ∀ arguments parameters, Obeys rule (checkArguments visit node arguments parameters) :=
    mild_checkArguments visit node
  refine .bind inferInstance fun name => ?_
  split
  · infer_instance
  · refine .bind inferInstance fun table => ?_
    split <;> infer_instance

instance : Obeys rule (visitOperands visit node) := by
  unfold visitOperands checkOperation
  infer_instance

instance : Obeys rule (visitStatements visit node) := by
  unfold visitStatements
  infer_instance

instance (signature : Signature) : Obeys Draft.quiet signature.newParameters := by
  unfold Signature.newParameters
  infer_instance

instance [∀ table, Obeys rule (setTable table)] : Obeys rule declareLibrary := by
  unfold declareLibrary
  infer_instance

instance [∀ table, Obeys rule (setTable table)] : Obeys rule (visitProgram visit node) := by
  refine .bind inferInstance fun _ => .bind inferInstance fun outcome => ?_
  split <;> infer_instance

/-- Only the rules for programs, blocks and functions do more to the table than to declare names and to record updates. -/
theorem mild_visitNode_inner [∀ name symbol, Obeys rule (changeTable fun table => table.add name symbol)]
    [∀ name type, Obeys rule (recordUpdate node name type)] {kind : Kind}
    (h : kind = .program ∨ kind = .block ∨ kind = .function → Obeys rule (visitNode visit node kind)) :
    Obeys rule (visitNode visit node kind) := by
  cases kind
  case program | block | function => exact h (by simp)
  all_goals
    simp only [visitNode, joinConcat, visitDeclaration, visitUpdate, visitConditional, visitMethod, visitReturn,
      visitParameter, visitComparison, visitBinary, concatCheck, visitUnary, checkUnary, visitLiteral]
    infer_instance

/-- Only the rule for functions says what is expected of returns. -/
theorem mild_visitNode [∀ table, Obeys rule (setTable table)] {kind : Kind}
    (h : kind = .function → Obeys rule (visitFunction visit node)) : Obeys rule (visitNode visit node kind) := by
  refine mild_visitNode_inner visit ?_
  rintro (rfl | rfl | rfl)
  · exact inferInstanceAs (Obeys rule (visitProgram visit node))
  · simp only [visitNode, visitBlock]
    infer_instance
  · exact h rfl

end Visits

instance [∀ table, Obeys rule (setTable table)] [∀ name type, Obeys rule (setFunction name type)] (depth : Nat)
    (value : Value) : Obeys rule (visitWithin depth value) := by
  induction depth generalizing value with
  | zero => exact inferInstanceAs (Obeys rule (fail _))
  | succ depth ih =>
      have hvisit : ∀ kind, Obeys rule (visitNode (visitWithin depth) value kind) :=
        fun _ => mild_visitNode _ fun _ => inferInstance
      refine .bind inferInstance fun graph => ?_
      split <;> infer_instance

end Scriptlet.Check
